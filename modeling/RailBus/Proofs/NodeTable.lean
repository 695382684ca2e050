import RailBus.Flow
import RailBus.Proofs.AddressMap
import RailBus.Proofs.Occurrence

/-!
# The node table, one entry at a time

What a table operation does to one entry, and which of the messages it transmits go to that node.
All but a stall change a single entry (`put`); a stall changes each entry by itself.
-/

namespace RailBus

/-- The messages that go to `a`, in order. -/
def sentTo (a : Address) (ms : List Message) : List Message := ms.filter (·.address = a)

@[simp] theorem sentTo_nil (a : Address) : sentTo a [] = [] := rfl

@[simp] theorem sentTo_append (a : Address) (ms ms' : List Message) :
    sentTo a (ms ++ ms') = sentTo a ms ++ sentTo a ms' := List.filter_append ..

theorem sentTo_transmitAll (n : Node) (a b : Address) (rs : List Request) :
    sentTo b (n.transmitAll a rs).2 = if a = b then (n.transmitAll a rs).2 else [] := by
  split
  case isTrue h =>
    refine List.filter_eq_self.2 fun m hm => ?_
    simpa [Node.address_of_mem_transmitAll hm] using h
  case isFalse h =>
    refine List.filter_eq_nil_iff.2 fun m hm => ?_
    simpa [Node.address_of_mem_transmitAll hm] using h

theorem sentTo_meetAll (n : Node) (a b : Address) (os : List Occurrence) :
    sentTo b (n.meetAll a os).2 = if a = b then (n.meetAll a os).2 else [] := by
  induction os generalizing n with
  | nil => simp [Node.meetAll]
  | cons o rest ih =>
    simp only [Node.meetAll, Node.meet, sentTo_append, sentTo_transmitAll, ih]
    split <;> rfl

namespace NodeTable

/-! ## One entry at a time -/

/-- Makes `n` the entry of `a`. -/
def put (t : NodeTable) (a : Address) (n : Node) : NodeTable :=
  { t with nodes := t.nodes.insert a n }

@[simp] theorem put_put (t : NodeTable) (a : Address) (n n' : Node) :
    (t.put a n).put a n' = t.put a n' := by
  simp [put]

theorem find?_put (t : NodeTable) (a b : Address) (n : Node) :
    (t.put a n).nodes.find? b = if b = a then some n else t.nodes.find? b :=
  AddressMap.find?_insert ..

theorem node_of_find? {t : NodeTable} {a : Address} {n : Node} (h : t.nodes.find? a = some n) :
    t.node a = n := by
  simp [node, h]

@[simp] theorem node_put_self (t : NodeTable) (a : Address) (n : Node) : (t.put a n).node a = n :=
  node_of_find? (by simp [put])

theorem outstanding_node (t : NodeTable) (a : Address) :
    (t.node a).outstanding = ((t.nodes.find? a).map Node.outstanding).getD [] := by
  unfold node
  cases t.nodes.find? a <;> rfl

theorem find?_insert_node {t : NodeTable} {a : Address} {n : Node}
    (h : t.nodes.find? a = some n) (b : Address) :
    (t.nodes.insert a (t.node a)).find? b = t.nodes.find? b := by
  rw [AddressMap.find?_insert]
  split
  case isTrue hb => rw [hb, h, node_of_find? h]
  case isFalse => rfl

theorem update_eq_put {β : Type} (t : NodeTable) (a : Address) (f : Node → Node × β) :
    t.update a f = (t.put a (f (t.node a)).1, (f (t.node a)).2) := rfl

theorem modify_eq_put (t : NodeTable) (a : Address) (f : Node → Node) :
    t.modify a f = t.put a (f (t.node a)) := rfl

theorem node_update {β : Type} (t : NodeTable) (a : Address) (f : Node → Node × β) :
    (t.update a f).1.node a = (f (t.node a)).1 := node_put_self ..

theorem node_modify (t : NodeTable) (a : Address) (f : Node → Node) :
    (t.modify a f).node a = f (t.node a) := node_put_self ..

theorem transmit_eq_put (t : NodeTable) (a : Address) (r : Request) :
    t.transmit a r =
      (t.put a ((t.node a).transmit a r).1, nextSeq (t.node a).lastSeq,
        ((t.node a).transmit a r).2) := by
  cases hf : (r.toMessage a (nextSeq (t.node a).lastSeq)).fits <;> cases hc : r.consumesCredit <;>
    simp [transmit, nextNumber, update_eq_put, Node.transmit, Node.nextNumber, await,
      modify_eq_put, hf, hc]

theorem transmitFor_put (t : NodeTable) (a : Address) (n : Node) (rs : List Request) :
    (t.put a n).transmitFor a rs =
      (t.put a (n.transmitAll a rs).1, (n.transmitAll a rs).2) := by
  unfold transmitFor
  induction rs generalizing n with
  | nil => rfl
  | cons r rest ih =>
    simp only [List.map_cons, transmitAll, transmit_eq_put, node_put_self, put_put, ih,
      Node.transmitAll]

/-- Of requests for many nodes a known one gets its own. -/
theorem transmitAll_known {t : NodeTable} {l : List (Address × Request)} {b : Address} {n : Node}
    (h : t.nodes.find? b = some n) :
    (t.transmitAll l).1.nodes.find? b = some (n.transmitAll b (valuesAt b l)).1 ∧
      sentTo b (t.transmitAll l).2 = (n.transmitAll b (valuesAt b l)).2 := by
  induction l generalizing t n with
  | nil => exact ⟨h, rfl⟩
  | cons x rest ih =>
    obtain ⟨a, r⟩ := x
    simp only [transmitAll, transmit_eq_put, valuesAt_cons, sentTo_append]
    have hsent := sentTo_transmitAll (t.node a) a b [r]
    simp only [Node.transmitAll, List.append_nil] at hsent
    by_cases hab : a = b
    · subst hab
      have hput := find?_put t a a ((t.node a).transmit a r).1
      rw [if_pos rfl] at hput
      obtain ⟨h1, h2⟩ := ih hput
      rw [if_pos rfl] at hsent
      rw [h1, h2, hsent, node_of_find? h, if_pos rfl, Node.transmitAll]
      exact ⟨rfl, rfl⟩
    · have hput := find?_put t a b ((t.node a).transmit a r).1
      rw [if_neg (Ne.symm hab), h] at hput
      obtain ⟨h1, h2⟩ := ih hput
      rw [if_neg hab] at hsent
      rw [h1, h2, hsent, if_neg hab, List.nil_append]
      exact ⟨rfl, rfl⟩

/-- A node that nothing is sent to stays unknown. -/
theorem transmitAll_unknown {t : NodeTable} {l : List (Address × Request)} {b : Address}
    (h : t.nodes.find? b = none) (hl : valuesAt b l = []) :
    (t.transmitAll l).1.nodes.find? b = none ∧ sentTo b (t.transmitAll l).2 = [] := by
  induction l generalizing t with
  | nil => exact ⟨h, rfl⟩
  | cons x rest ih =>
    obtain ⟨a, r⟩ := x
    rw [valuesAt_cons] at hl
    split at hl
    case isTrue => cases hl
    case isFalse hab =>
      have hput := find?_put t a b ((t.node a).transmit a r).1
      rw [if_neg (Ne.symm hab), h] at hput
      have hsent := sentTo_transmitAll (t.node a) a b [r]
      simp only [Node.transmitAll, List.append_nil, if_neg hab] at hsent
      obtain ⟨h1, h2⟩ := ih hput hl
      simp [transmitAll, transmit_eq_put, hsent, h1, h2]

theorem find?_setStall (t : NodeTable) {a : Address} {n₀ : Node} (h : t.nodes.find? a = some n₀)
    (on : Bool) (b : Address) :
    (t.setStall a on).1.nodes.find? b =
      (t.nodes.find? b).map fun n => if a.isPrefixOf b then (n.setStall on).1 else n := by
  simp only [setStall, AddressMap.find?_map, find?_insert_node h]
  congr 1
  funext n
  split <;> rfl

/-- What a node lets go when a stall above it ends. -/
theorem valuesAt_setStall (t : NodeTable) {a : Address} {n₀ : Node}
    (h : t.nodes.find? a = some n₀) (on : Bool) (b : Address) :
    valuesAt b (t.setStall a on).2 =
      ((t.nodes.find? b).map fun n =>
        if a.isPrefixOf b then (n.setStall on).2 else []).getD [] := by
  simp only [setStall]
  rw [AddressMap.valuesAt_flatMap (t.nodes.insert a (t.node a)) (fun b n =>
    (if a.isPrefixOf b then n.setStall on else (n, [])).2), find?_insert_node h]
  congr 2
  funext n
  split <;> rfl

end NodeTable

end RailBus
