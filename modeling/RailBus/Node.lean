import RailBus.Request

/-!
# One node

What the link keeps about a node: the numbers last used in either direction, the credit the node
grants, what waits to be sent and what waits to be answered.
-/

namespace RailBus

/-- The number after `seq`: 1 to 255 and round again, never 0. -/
def nextSeq (seq : UInt8) : UInt8 := if seq = 255 then 1 else seq + 1

/-- How the number of an inbound message compares with the one before it. -/
inductive SeqCheck
  | first
  | inOrder
  /-- number 0: the node starts counting anew -/
  | restarted
  | gap (expected actual : UInt8)
  deriving DecidableEq, Repr

structure Node where
  lastSeq : UInt8 := 0
  capacity : UInt8
  /-- Credit taken by transmitted requests. Ending a stall may push it past `capacity`. -/
  inUse : Nat := 0
  stalled : Bool := false
  pending : List Request := []
  outstanding : List Outstanding := []
  lastReceived : Option UInt8 := none
  deriving DecidableEq

namespace Node

def credit (n : Node) : Nat := n.capacity.toNat - n.inUse

/-- Splits off the requests that `credit` admits, up to the first that would overdraw it. -/
def admissible (credit : Nat) : List Request → List Request × List Request
  | [] => ([], [])
  | r :: rest =>
    if r.consumesCredit then
      match credit with
      | 0 => ([], r :: rest)
      | credit + 1 =>
        let (admitted, held) := admissible credit rest
        (r :: admitted, held)
    else
      let (admitted, held) := admissible credit rest
      (r :: admitted, held)

/-- The credit that transmitting `rs` takes. -/
def charge (rs : List Request) : Nat := rs.countP Request.consumesCredit

/-- Releases the pending requests that may go out now, in order. -/
def drain (n : Node) : Node × List Request :=
  if n.stalled then (n, [])
  else
    let (admitted, held) := admissible n.credit n.pending
    ({ n with pending := held, inUse := n.inUse + charge admitted }, admitted)

/-- Takes the next sequence number. -/
def nextNumber (n : Node) : Node × UInt8 :=
  ({ n with lastSeq := nextSeq n.lastSeq }, nextSeq n.lastSeq)

/-- Whether a message may go out at once, taking credit if it needs any. A stall and older pending
requests hold back every message, whether it needs credit or not. -/
def reserve (n : Node) (consumes : Bool) : Node × Bool :=
  if n.stalled || !n.pending.isEmpty then (n, false)
  else if consumes then
    if n.credit = 0 then (n, false) else ({ n with inUse := n.inUse + 1 }, true)
  else (n, true)

def enqueue (n : Node) (r : Request) : Node := { n with pending := n.pending ++ [r] }

def await (n : Node) (o : Outstanding) : Node := { n with outstanding := n.outstanding ++ [o] }

/-- An answer has come: the oldest outstanding request is settled and gives its credit back. -/
def release (n : Node) : Node × Option ActionId × List Request :=
  let action := n.outstanding.head?.bind (·.action)
  let (n, drained) := { n with outstanding := n.outstanding.tail, inUse := n.inUse - 1 }.drain
  (n, action, drained)

/-- Stops the node, or lets it go with all that waits, whatever its credit. -/
def setStall (n : Node) : Bool → Node × List Request
  | true => ({ n with stalled := true }, [])
  | false =>
    ({ n with stalled := false, pending := [], inUse := n.inUse + charge n.pending }, n.pending)

def observe (n : Node) (seq : UInt8) : Node × SeqCheck :=
  if seq = noSequence then ({ n with lastReceived := none }, .restarted)
  else
    let check := match n.lastReceived with
      | none => .first
      | some last => if seq = nextSeq last then .inOrder else .gap (nextSeq last) seq
    ({ n with lastReceived := some seq }, check)

/-- The bytes a node is taken to need for one message. -/
def bytesPerMessage : UInt8 := 4

/-- Adopts a buffer size that the node reports, at least one message. -/
def learn (n : Node) (bytes : UInt8) : Node × List Request :=
  { n with capacity := max (bytes / bytesPerMessage) 1 }.drain

end Node
end RailBus
