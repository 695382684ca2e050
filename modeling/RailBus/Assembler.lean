import RailBus.Packet

/-!
# Assembling packets

Packets are put together from bytes as they arrive. A delimiter both closes a packet and opens the
next; bytes that belong to no packet are counted as noise.
-/

namespace RailBus

namespace Assembler

inductive Phase
  /-- no delimiter seen since the start, a reset or an overflow -/
  | awaiting
  | inPacket
  /-- in a packet, just behind an `escapeMark` -/
  | escaped
  deriving DecidableEq, Repr

end Assembler

structure Assembler where
  phase : Assembler.Phase := .awaiting
  body : Bytes := []
  noise : Nat := 0
  deriving DecidableEq

namespace Assembler

/-- Nothing of a packet has been read. -/
def isIdle (a : Assembler) : Bool := a.body.isEmpty && a.phase != .escaped

/-- Forgets the packet at hand but not the noise. -/
def reset (a : Assembler) : Assembler := { a with phase := .awaiting, body := [] }

/-- Adds an unstuffed byte. -/
def accept (a : Assembler) (b : UInt8) : Assembler × Option Packet.Result :=
  if a.body.length ≥ maxPacketBody then (a.reset, some (.error (.overflow maxPacketBody)))
  else ({ a with phase := .inPacket, body := a.body ++ [b] }, none)

/-- Starts a packet in the place of the one at hand. -/
def openPacket (a : Assembler) : Assembler := { a with phase := .inPacket, body := [] }

def push (a : Assembler) (b : UInt8) : Assembler × Option Packet.Result :=
  match a.phase with
  | .awaiting => if b = magic then (a.openPacket, none) else ({ a with noise := a.noise + 1 }, none)
  | .escaped =>
    if b = magic then (a.openPacket, some (.error .badEscape)) else a.accept (b ^^^ escapeFlip)
  | .inPacket =>
    if b = magic then
      if a.body.isEmpty then (a, none) else (a.openPacket, some (Packet.decodeBody a.body))
    else if b = escapeMark then ({ a with phase := .escaped }, none)
    else a.accept b

/-- All that the bytes complete, in order. -/
def pushAll (a : Assembler) : Bytes → Assembler × List Packet.Result
  | [] => (a, [])
  | b :: rest =>
    let (a, result) := a.push b
    let (a, results) := a.pushAll rest
    (a, result.toList ++ results)

end Assembler
end RailBus
