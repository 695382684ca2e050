import RailBus.Inbox
import RailBus.LinkError
import RailBus.NodeTable

/-!
# Flow control

Decides what is sent when: the node table, the inboxes, and the rules that tie them together. No
bytes are written here. Every operation returns the messages it transmits, in order, with the
numbers they were given.
-/

namespace RailBus

/-- What became of an accepted message. -/
inductive Receipt
  /-- it is in the packet under construction, under this number -/
  | buffered (seq : UInt8)
  /-- it waits until its node can take it -/
  | queued
  deriving DecidableEq, Repr

namespace NodeTable

/-- Numbers a request and enters it as outstanding if it is to be answered. A request too large
to encode uses up its number and is dropped. -/
def transmit (t : NodeTable) (a : Address) (r : Request) : NodeTable × UInt8 × List Message :=
  let (t, seq) := t.nextNumber a
  let m := r.toMessage a seq
  if m.fits then
    let t := if r.consumesCredit then t.await a ⟨seq, r.type, r.action⟩ else t
    (t, seq, [m])
  else (t, seq, [])

def transmitAll (t : NodeTable) : List (Address × Request) → NodeTable × List Message
  | [] => (t, [])
  | (a, r) :: rest =>
    let (t, _, sent) := t.transmit a r
    let (t, more) := t.transmitAll rest
    (t, sent ++ more)

/-- Transmits requests released by one node. -/
def transmitFor (t : NodeTable) (a : Address) (rs : List Request) : NodeTable × List Message :=
  t.transmitAll (rs.map (a, ·))

end NodeTable

structure Flow where
  limit : Nat
  table : NodeTable
  uplink : Inbox := {}
  errors : Inbox := {}
  messagesQueued : Nat := 0
  messagesReceived : Nat := 0
  sequenceGaps : Nat := 0

namespace Flow

/-- Whether a message fits a packet by itself, whatever number it gets: `magic` takes two bytes
once stuffed, and no number takes more. -/
def checkFits (f : Flow) (a : Address) (r : Request) : Except LinkError Unit :=
  match (r.toMessage a magic).encode with
  | .error e => .error (.wire e)
  | .ok body =>
    if framedLength body ≤ f.limit then .ok () else .error (.capacity (framedLength body) f.limit)

/-- Sends a message that fits, or has it wait. -/
def accept (f : Flow) (a : Address) (r : Request) : Flow × Receipt × List Message :=
  let (table, admitted) := f.table.reserve a r.consumesCredit
  if admitted then
    let (table, seq, sent) := table.transmit a r
    ({ f with table := table }, .buffered seq, sent)
  else
    ({ f with table := table.enqueue a r, messagesQueued := f.messagesQueued + 1 }, .queued, [])

def send (f : Flow) (a : Address) (r : Request) :
    Except LinkError (Flow × Receipt × List Message) :=
  (f.checkFits a r).map fun _ => f.accept a r

/-- Sends without asking flow control. -/
def sendUnchecked (f : Flow) (a : Address) (r : Request) :
    Except LinkError (Flow × UInt8 × List Message) :=
  (f.checkFits a r).map fun _ =>
    let (table, seq, sent) := f.table.transmit a r
    ({ f with table := table }, seq, sent)

/-! ## Inbound messages -/

/-- A node stops itself and what lies below it, or lets all of it go. -/
def handleStall (f : Flow) (m : Message) : Flow × List Message :=
  let (table, freed) := f.table.setStall m.address (m.payload.headD 0 != 0)
  let (table, sent) := table.transmitAll freed
  ({ f with table := table }, sent)

/-- Whether a packet has to be closed at once after `m`: all that a stall held back is to leave. -/
def closesPacket (m : Message) : Bool := m.type == .stall && m.payload.headD 0 == 0

/-- A node has told how much it can buffer. -/
def handleCapacity (f : Flow) (m : Message) : Flow × List Message :=
  match m.payload with
  | [] => (f, [])
  | bytes :: _ =>
    let (table, drained) := f.table.learn m.address bytes
    let (table, sent) := table.transmitFor m.address drained
    ({ f with table := table }, sent)

/-- What acknowledges the arrival or loss of a node: the version of its parent's node list. -/
def changeAck (m : Message) : Request := { type := .nodeChangedAck, payload := [m.payload.headD 0] }

/-- Acknowledges a node change; where no packet can hold the acknowledgement, none is sent. -/
def handleNodeChange (f : Flow) (m : Message) : Flow × List Message :=
  match f.send m.address (changeAck m) with
  | .error _ => (f, [])
  | .ok (f, _, sent) => (f, sent)

/-- Every uplink type that is not spontaneous counts as the answer to the oldest outstanding
request of its node. Nothing on the line tells an answer from an unsolicited report. -/
def settles (m : Message) : Bool := m.type.isUplink && !m.type.isSpontaneous

def settle (f : Flow) (m : Message) : Flow × Message × List Message :=
  if settles m then
    let (table, action, drained) := f.table.release m.address
    let (table, sent) := table.transmitFor m.address drained
    ({ f with table := table }, { m with action := action }, sent)
  else (f, m, [])

def deliver (f : Flow) (m : Message) : Flow :=
  if m.type.isError then { f with errors := f.errors.push m }
  else { f with uplink := f.uplink.push m }

def observe (f : Flow) (m : Message) : Flow :=
  let (table, check) := f.table.observe m.address m.seq
  let gaps := match check with
    | .gap _ _ => 1
    | .first | .inOrder | .restarted => 0
  { f with
    table := table
    messagesReceived := f.messagesReceived + 1
    sequenceGaps := f.sequenceGaps + gaps }

/-- What a message does by its type before it is delivered. -/
def react (f : Flow) (m : Message) : Flow × List Message :=
  if m.type = .pktCapacity then f.handleCapacity m
  else if m.type = .nodeNew ∨ m.type = .nodeLost then f.handleNodeChange m
  else (f, [])

/-- Handles one inbound message. -/
def receive (f : Flow) (m : Message) : Flow × List Message :=
  let f := f.observe m
  if m.type = .stall then f.handleStall m
  else
    let (f, reactions) := f.react m
    let (f, m, released) := f.settle m
    (f.deliver m, reactions ++ released)

/-- Forgets nodes and inboxes; the counters run on. -/
def reset (f : Flow) : Flow := { f with table := f.table.reset, uplink := {}, errors := {} }

end Flow
end RailBus
