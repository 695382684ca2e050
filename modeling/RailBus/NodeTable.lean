import RailBus.Address.Map
import RailBus.Node

/-!
# The node table

Every node that was ever sent to or heard from has an entry. An entry is made on first use and
starts stalled when a known node above it is stalled.
-/

namespace RailBus

structure NodeTable where
  defaultCredit : UInt8
  honorReports : Bool := true
  nodes : AddressMap Node := {}

/-- What can be seen of a node from outside. -/
structure NodeState where
  address : Address
  lastSeq : UInt8
  capacity : UInt8
  available : Nat
  stalled : Bool
  pending : Nat
  outstanding : Nat
  deriving DecidableEq

namespace NodeTable

/-- An empty table; a node is granted at least one credit. -/
def new (defaultCredit : UInt8) (honorReports : Bool) : NodeTable :=
  { defaultCredit := max defaultCredit 1, honorReports := honorReports }

/-- Whether a known node above `a` is stalled. -/
def inheritsStall (t : NodeTable) (a : Address) : Bool :=
  t.nodes.entries.any fun (b, n) => n.stalled && b.isAncestorOf a

/-- The entry of `a`, or the one it would get. -/
def node (t : NodeTable) (a : Address) : Node :=
  (t.nodes.find? a).getD { capacity := t.defaultCredit, stalled := t.inheritsStall a }

/-- Changes the entry of `a`, made if need be. -/
def update {β : Type} (t : NodeTable) (a : Address) (f : Node → Node × β) : NodeTable × β :=
  let (n, result) := f (t.node a)
  ({ t with nodes := t.nodes.insert a n }, result)

def modify (t : NodeTable) (a : Address) (f : Node → Node) : NodeTable :=
  { t with nodes := t.nodes.insert a (f (t.node a)) }

def nextNumber (t : NodeTable) (a : Address) : NodeTable × UInt8 := t.update a Node.nextNumber

def reserve (t : NodeTable) (a : Address) (consumes : Bool) : NodeTable × Bool :=
  t.update a (·.reserve consumes)

def enqueue (t : NodeTable) (a : Address) (r : Request) : NodeTable := t.modify a (·.enqueue r)

def await (t : NodeTable) (a : Address) (o : Outstanding) : NodeTable := t.modify a (·.await o)

def release (t : NodeTable) (a : Address) : NodeTable × Option ActionId × List Request :=
  t.update a Node.release

def observe (t : NodeTable) (a : Address) (seq : UInt8) : NodeTable × SeqCheck :=
  t.update a (·.observe seq)

/-- Adopts a reported buffer size; a report of 0 tells nothing. -/
def learn (t : NodeTable) (a : Address) (bytes : UInt8) : NodeTable × List Request :=
  if t.honorReports && bytes != 0 then t.update a (·.learn bytes) else (t, [])

/-- Stalls or frees `a` and every known node below it. What the freed nodes had pending is
returned by node in address order, and in the order it came within a node. -/
def setStall (t : NodeTable) (a : Address) (on : Bool) : NodeTable × List (Address × Request) :=
  let nodes := t.nodes.insert a (t.node a)
  let step (b : Address) (n : Node) := if a.isPrefixOf b then n.setStall on else (n, [])
  ({ t with nodes := nodes.map fun b n => (step b n).1 },
    nodes.entries.flatMap fun (b, n) => (step b n).2.map (b, ·))

def isStalled (t : NodeTable) (a : Address) : Bool := (t.nodes.find? a).any (·.stalled)

def pendingCount (t : NodeTable) (a : Address) : Nat :=
  ((t.nodes.find? a).map (·.pending.length)).getD 0

def credit? (t : NodeTable) (a : Address) : Option Nat := (t.nodes.find? a).map (·.credit)

def state? (t : NodeTable) (a : Address) : Option NodeState :=
  (t.nodes.find? a).map fun n =>
    { address := a, lastSeq := n.lastSeq, capacity := n.capacity, available := n.credit,
      stalled := n.stalled, pending := n.pending.length, outstanding := n.outstanding.length }

def knownNodes (t : NodeTable) : List Address := t.nodes.keys

def states (t : NodeTable) : List NodeState := t.knownNodes.filterMap t.state?

def totalPending (t : NodeTable) : Nat := (t.nodes.entries.flatMap fun (_, n) => n.pending).length

def reset (t : NodeTable) : NodeTable := { t with nodes := {} }

end NodeTable
end RailBus
