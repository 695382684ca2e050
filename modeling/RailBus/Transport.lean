import RailBus.WireError

/-!
# Ends of the line

Where packets go, where bytes come from, and an in-memory line with both ends. A device shows
itself only by the outcomes of its calls, so it is given by a script of them.
-/

namespace RailBus

inductive DeviceError.Kind
  | wouldBlock
  | timedOut
  | interrupted
  | brokenPipe
  | writeZero
  deriving DecidableEq, Repr

structure DeviceError where
  kind : DeviceError.Kind
  reason : String
  deriving DecidableEq, Repr

namespace DeviceError

def Kind.name : Kind → String
  | wouldBlock => "WouldBlock"
  | timedOut => "TimedOut"
  | interrupted => "Interrupted"
  | brokenPipe => "BrokenPipe"
  | writeZero => "WriteZero"

/-- A device that takes no bytes though it reports no error. -/
def nothingTaken : DeviceError := ⟨.writeZero, "failed to write whole buffer"⟩

def portClosed : DeviceError := ⟨.brokenPipe, "port closed"⟩

end DeviceError

/-! ## Sinks -/

/-- A sink takes packets whole. `accepts n` tells whether the write that follows `n` others
succeeds; every attempt is on record with its outcome. -/
structure Sink where
  accepts : Nat → Bool := fun _ => true
  attempts : List (Bytes × Bool) := []

namespace Sink

def write (s : Sink) (packet : Bytes) : Sink × Bool :=
  ({ accepts := fun n => s.accepts (n + 1), attempts := s.attempts ++ [(packet, s.accepts 0)] },
    s.accepts 0)

def written (s : Sink) : List Bytes := (s.attempts.filter (·.2)).map (·.1)

def setFailing (s : Sink) (failing : Bool) : Sink := { s with accepts := fun _ => !failing }

/-- Hands over the packets written so far and clears the record. -/
def takeWritten (s : Sink) : Sink × List Bytes := ({ s with attempts := [] }, s.written)

end Sink

/-! ## Sources -/

inductive ReadOutcome
  | byte (b : UInt8)
  | endOfData
  | failed (e : DeviceError)
  deriving DecidableEq, Repr

/-- A source has a byte or has none; why it has none does not matter. -/
def ReadOutcome.byte? : ReadOutcome → Option UInt8
  | byte b => some b
  | endOfData | failed _ => none

/-- The byte of a device that marks which of its bytes are valid. -/
def flaggedByte? (b : UInt8) (valid : Bool) : Option UInt8 := if valid then some b else none

/-- The next `count` bytes of a source; past the end of its script it has none. -/
def readBytes (script : List (Option UInt8)) (count : Nat) : List (Option UInt8) :=
  (List.range count).map fun i => (script[i]?).join

/-! ## Devices that take part of a buffer -/

inductive WriteOutcome
  | upTo (count : Nat)
  | failed (e : DeviceError)
  deriving DecidableEq, Repr

inductive DeviceCall
  | took (chunk : Bytes)
  | flushed
  deriving DecidableEq, Repr

structure Device where
  script : List WriteOutcome := []
  log : List DeviceCall := []

namespace Device

/-- Writes until all is taken. An interrupted call is made again; past the end of the script the
device takes everything. -/
def offer : List WriteOutcome → Bytes → List WriteOutcome × List Bytes × Except DeviceError Unit
  | script, [] => (script, [], .ok ())
  | [], bs => ([], [bs], .ok ())
  | .upTo 0 :: script, _ => (script, [[]], .error .nothingTaken)
  | .upTo count :: script, bs =>
    let (script, chunks, result) := offer script (bs.drop count)
    (script, bs.take count :: chunks, result)
  | .failed e :: script, bs =>
    if e.kind = .interrupted then offer script bs else (script, [], .error e)

/-- Writes a packet and has the device flush it. -/
def write (d : Device) (packet : Bytes) : Device × Except DeviceError Unit :=
  let (script, chunks, result) := offer d.script packet
  let flush := match result with
    | .ok () => [.flushed]
    | .error _ => []
  ({ script := script, log := d.log ++ chunks.map .took ++ flush }, result)

end Device

/-! ## The in-memory line -/

structure Loopback where
  inbound : Bytes := []
  sink : Sink := {}

namespace Loopback

def inject (l : Loopback) (bs : Bytes) : Loopback := { l with inbound := l.inbound ++ bs }

def read (l : Loopback) : Loopback × Option UInt8 :=
  ({ l with inbound := l.inbound.tail }, l.inbound.head?)

def write (l : Loopback) (packet : Bytes) : Loopback × Except DeviceError Unit :=
  let (sink, ok) := l.sink.write packet
  ({ l with sink := sink }, if ok then .ok () else .error .portClosed)

end Loopback
end RailBus
