import RailBus.Proofs.Independence
import RailBus.Proofs.Routing
import Mathlib.Logic.Function.Basic

/-!
# What is heard

Some of what a link keeps comes from the messages that it receives and from nothing else, whatever
it was set to: the last number of each node, and so the gaps in these (`sequenceGaps_run`), and
which nodes are known and which of them are stopped (`flags_run`).
-/

namespace RailBus

/-! ## Numbers -/

/-- The number is not the one that follows the last. Number 0 follows any, and any follows none. -/
def isGap (last : Option UInt8) (seq : UInt8) : Bool :=
  seq != noSequence && last.any fun last => seq != nextSeq last

def SeqCheck.isGap : SeqCheck → Bool
  | .gap _ _ => true
  | .first | .inOrder | .restarted => false

/-- How many numbers do not follow the last of the same node. -/
def gaps (last : Address → Option UInt8) : List (Address × UInt8) → Nat
  | [] => 0
  | (a, seq) :: rest =>
    (isGap (last a) seq).toNat + gaps (Function.update last a (Node.remembered seq)) rest

namespace Node

variable {a : Address}

/-- What is said of a number after the last one that is remembered. -/
def judge (last : Option UInt8) (seq : UInt8) : SeqCheck :=
  if seq = noSequence then .restarted
  else match last with
    | none => .first
    | some last => if seq = nextSeq last then .inOrder else .gap (nextSeq last) seq

theorem observe_eq (n : Node) (seq : UInt8) :
    n.observe seq = ({ n with lastReceived := remembered seq }, judge n.lastReceived seq) := by
  unfold observe judge remembered
  split <;> rfl

theorem isGap_judge (last : Option UInt8) (seq : UInt8) :
    (judge last seq).isGap = isGap last seq := by
  unfold judge isGap
  split
  case isTrue hseq =>
    rw [hseq]
    rfl
  case isFalse hseq =>
    cases last with
    | none => simp [SeqCheck.isGap]
    | some last =>
      dsimp only
      split
      case isTrue hnext => simp [← hnext, SeqCheck.isGap]
      case isFalse hnext => simp [hseq, hnext, SeqCheck.isGap]

theorem lastReceived_transmitAll (n : Node) (a : Address) (rs : List Request) :
    (n.transmitAll a rs).1.lastReceived = n.lastReceived := by
  obtain ⟨_, _, hframe⟩ := n.transmitAll_frame a rs
  rw [hframe]

/-- Only to hear from a node changes the number that was last heard from it. -/
theorem lastReceived_regulate (n : Node) {o : Occurrence} (ho : ∀ seq, o ≠ .heard seq) :
    (n.regulate o).1.lastReceived = n.lastReceived := by
  rw [regulate_eq_note]
  cases o with
  | heard seq => exact absurd rfl (ho seq)
  | _ => rfl

theorem lastReceived_meet (n : Node) (a : Address) {o : Occurrence} (ho : ∀ seq, o ≠ .heard seq) :
    (n.meet a o).1.lastReceived = n.lastReceived :=
  (lastReceived_transmitAll _ a _).trans (n.lastReceived_regulate ho)

theorem lastReceived_meet_heard (n : Node) (a : Address) (seq : UInt8) :
    (n.meet a (.heard seq)).1.lastReceived = remembered seq := by
  have hregulate : (n.regulate (.heard seq)).1.lastReceived = remembered seq := by
    rw [regulate_eq_note]
    rfl
  exact (lastReceived_transmitAll _ a _).trans hregulate

theorem lastReceived_meetAll {os : List Occurrence} (h : ∀ seq, .heard seq ∉ os) (n : Node) :
    (n.meetAll a os).1.lastReceived = n.lastReceived := by
  induction os generalizing n with
  | nil => rfl
  | cons o rest ih =>
    have hfirst := n.lastReceived_meet a (o := o) fun seq => (List.ne_of_not_mem_cons (h seq)).symm
    exact (ih (fun seq => List.not_mem_of_not_mem_cons (h seq)) _).trans hfirst

end Node

namespace Flow

variable {f : Flow} {m : Message} {a : Address}

/-- The number last heard from a node. -/
def last (f : Flow) (a : Address) : Option UInt8 := (f.table.node a).lastReceived

theorem last_step (f : Flow) (i : Input) (a : Address) :
    (f.step i).1.last a = ((f.table.node a).meetAll a (f.occurrences a i)).1.lastReceived := by
  have hentry := f.find?_step i a
  by_cases hnone : f.occurrences a i = []
  · rw [if_pos hnone] at hentry
    rw [hnone]
    simp only [last, NodeTable.node, hentry]
    cases f.table.nodes.find? a <;> rfl
  · rw [if_neg hnone] at hentry
    rw [last, NodeTable.node_of_find? hentry]

theorem heard_notMem_reactions (f : Flow) (m : Message) (seq : UInt8) :
    .heard seq ∉ f.reactions m ++ answers m := by
  intro h
  rcases List.mem_append.1 h with h | h
  · obtain ⟨bytes, h⟩ | ⟨h, -⟩ := of_mem_reactions h <;> cases h
  · cases (of_mem_answers h).1

theorem last_receive (f : Flow) (m : Message) :
    (f.step (.receive m)).1.last = Function.update f.last m.address (Node.remembered m.seq) := by
  funext a
  rw [last_step]
  by_cases ha : m.address = a
  · subst ha
    have hrest : ∀ seq, .heard seq ∉
        if m.type = .stall then [signal m] else f.reactions m ++ answers m := by
      intro seq
      split
      · simp [signal]
      · exact f.heard_notMem_reactions m seq
    rw [Function.update_self, occurrences, if_pos rfl, Node.meetAll_cons]
    exact (Node.lastReceived_meetAll hrest _).trans (Node.lastReceived_meet_heard _ _ _)
  · have hrest : ∀ seq, .heard seq ∉ f.occurrences a (.receive m) := by
      intro seq
      rw [occurrences, if_neg ha]
      split <;> simp [signal]
    rw [Function.update_of_ne (Ne.symm ha)]
    exact Node.lastReceived_meetAll hrest _

theorem TouchesTable.sequenceGaps {g : Flow} (h : f.TouchesTable g) :
    g.sequenceGaps = f.sequenceGaps := by rw [h]

theorem sequenceGaps_deliver (f : Flow) (m : Message) :
    (f.deliver m).sequenceGaps = f.sequenceGaps := by
  unfold deliver
  split <;> rfl

theorem sequenceGaps_observe (f : Flow) (m : Message) :
    (f.observe m).sequenceGaps = f.sequenceGaps + (isGap (f.last m.address) m.seq).toNat := by
  rw [← Node.isGap_judge]
  simp only [observe, NodeTable.observe, NodeTable.update_eq_put, Node.observe_eq, last]
  cases Node.judge (f.table.node m.address).lastReceived m.seq <;> rfl

theorem sequenceGaps_receive (f : Flow) (m : Message) :
    (f.receive m).1.sequenceGaps = f.sequenceGaps + (isGap (f.last m.address) m.seq).toNat := by
  rw [← sequenceGaps_observe]
  by_cases hm : m.type = .stall
  · simp only [receive, hm, if_true]
    rfl
  · have htouch := ((f.observe m).touchesTable_react m).trans (touchesTable_settle _ m)
    simp only [receive, hm, if_false, sequenceGaps_deliver]
    exact htouch.sequenceGaps

/-- The gaps that are counted are those in the numbers that came, node by node. -/
theorem sequenceGaps_run (f : Flow) (ms : List Message) :
    (f.run (ms.map .receive)).1.sequenceGaps =
      f.sequenceGaps + gaps f.last (ms.map fun m => (m.address, m.seq)) := by
  induction ms generalizing f with
  | nil => rfl
  | cons m rest ih =>
    have hstep : (f.step (.receive m)).1.sequenceGaps = _ := f.sequenceGaps_receive m
    have hrest := ih (f.step (.receive m)).1
    rw [hstep, last_receive, Nat.add_assoc] at hrest
    exact hrest

end Flow

/-! ## Flags -/

/-- The nodes that are known, each with its stall flag. -/
abbrev Flags := AddressMap Bool

namespace Flags

/-- The flag of a node, or the one it would get. -/
def node (s : Flags) (a : Address) : Bool :=
  (s.find? a).getD (s.entries.any fun (b, stalled) => stalled && b.isAncestorOf a)

/-- The sender of a message is known from then on. If it is a stall message, its sender and the
known nodes below it do as it says. -/
def hear (s : Flags) (m : Message) : Flags :=
  let known := s.insert m.address (s.node m.address)
  if m.type = .stall then
    known.map fun b stalled => if m.address.isPrefixOf b then m.stops else stalled
  else known

variable {s : Flags} {m : Message} {d : Address}

theorem find?_hear_of_signals (h : m.Signals d) :
    (s.hear m).find? d =
      if d = m.address then some m.stops else (s.find? d).map fun _ => m.stops := by
  simp only [hear, if_pos h.1, AddressMap.find?_map, AddressMap.find?_insert, h.2, if_true]
  split <;> rfl

theorem find?_hear_of_quiet (h : ¬ m.Signals d) :
    (s.hear m).find? d = if d = m.address then some (s.node d) else s.find? d := by
  have hinsert : (s.insert m.address (s.node m.address)).find? d =
      if d = m.address then some (s.node d) else s.find? d := by
    rw [AddressMap.find?_insert]
    split
    case isTrue hd => rw [hd]
    case isFalse => rfl
  simp only [hear]
  split
  case isTrue hstall =>
    have hprefix : m.address.isPrefixOf d = false :=
      Bool.eq_false_iff.2 fun hprefix => h ⟨hstall, hprefix⟩
    simp only [AddressMap.find?_map, hprefix, Bool.false_eq_true, if_false, hinsert]
    exact Option.map_id' ..
  case isFalse => exact hinsert

def stalledNodes (s : Flags) : List Address := (s.entries.filter (·.2)).map (·.1)

end Flags

namespace NodeTable

def flags (t : NodeTable) : Flags :=
  ⟨t.nodes.entries.map fun (a, n) => (a, n.stalled), List.pairwise_map.2 t.nodes.sorted⟩

theorem find?_flags (t : NodeTable) (a : Address) :
    t.flags.find? a = (t.nodes.find? a).map (·.stalled) := by
  simp only [flags, AddressMap.find?]
  induction t.nodes.entries with
  | nil => rfl
  | cons x rest ih =>
    obtain ⟨b, n⟩ := x
    rw [List.map_cons, AddressMap.lookup_cons_ite, AddressMap.lookup_cons_ite, ih]
    split <;> rfl

theorem flags_node (t : NodeTable) (a : Address) : t.flags.node a = (t.node a).stalled := by
  rw [Flags.node, find?_flags]
  cases hn : t.nodes.find? a with
  | some n =>
    rw [node_of_find? hn]
    rfl
  | none =>
    rw [stalled_node_of_unknown hn, inheritsStall, flags, List.any_map]
    rfl

/-- What is shown of an entry. -/
def shown (x : Address × Node) : NodeState :=
  { address := x.1, lastSeq := x.2.lastSeq, capacity := x.2.capacity, available := x.2.credit,
    stalled := x.2.stalled, pending := x.2.pending.length, outstanding := x.2.outstanding.length }

theorem state?_of_mem {t : NodeTable} {x : Address × Node} (h : x ∈ t.nodes.entries) :
    t.state? x.1 = some (shown x) := by
  rw [state?, AddressMap.find?_of_mem h]
  rfl

theorem states_eq (t : NodeTable) : t.states = t.nodes.entries.map shown := by
  rw [states, knownNodes, AddressMap.keys, List.filterMap_map,
    List.filterMap_eq_map_iff_forall_eq_some]
  exact fun x => state?_of_mem

theorem stalledNodes_flags (t : NodeTable) :
    t.flags.stalledNodes = (t.states.filter (·.stalled)).map (·.address) := by
  rw [states_eq, Flags.stalledNodes, flags, List.filter_map, List.filter_map, List.map_map,
    List.map_map]
  rfl

end NodeTable

namespace Flow

/-- What a message makes of the flags, it makes of them whatever else is kept of the nodes. -/
theorem flags_receive (f : Flow) (m : Message) :
    (f.step (.receive m)).1.table.flags = f.table.flags.hear m := by
  apply AddressMap.ext_find?
  intro d
  rw [NodeTable.find?_flags]
  by_cases hm : m.Signals d
  · have hentry := f.find?_step (.receive m) d
    rw [occurrences_of_signals hm] at hentry
    rw [Flags.find?_hear_of_signals hm, NodeTable.find?_flags]
    by_cases ha : d = m.address
    · rw [if_pos ha.symm, if_neg (by simp)] at hentry
      rw [if_pos ha, hentry, Option.map_some, stalled_of_signals hentry hm]
    · rw [if_neg (Ne.symm ha)] at hentry
      rw [if_neg ha]
      cases hknown : f.table.nodes.find? d with
      | none =>
        rw [hknown] at hentry
        rw [hentry]
        rfl
      | some n =>
        rw [hknown] at hentry
        rw [hentry]
        exact congrArg some (stalled_of_signals hentry hm)
  · rw [Flags.find?_hear_of_quiet hm, NodeTable.flags_node, NodeTable.find?_flags]
    by_cases ha : d = m.address
    · have hentry := f.find?_step (.receive m) d
      have hheard : f.occurrences d (.receive m) ≠ [] := by simp [occurrences, ha]
      rw [if_neg hheard] at hentry
      have hquiet : ¬ (Input.receive m).Signals d := hm
      rw [if_pos ha, hentry, Option.map_some, stalled_of_quiet hentry hquiet]
    · rw [if_neg ha, find?_receive_of_other (Ne.symm ha) hm]

theorem flags_run (f : Flow) (ms : List Message) :
    (f.run (ms.map .receive)).1.table.flags = ms.foldl Flags.hear f.table.flags := by
  induction ms generalizing f with
  | nil => rfl
  | cons m rest ih =>
    have hrest := ih (f.step (.receive m)).1
    rw [flags_receive] at hrest
    exact hrest

end Flow
end RailBus
