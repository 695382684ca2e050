import RailBus.Proofs.Episode
import RailBus.Proofs.Independence

/-!
# What a stall reaches

A stall begins or ends at one node and at the known nodes below it, and nowhere else. The nodes are
taken one after the other in ascending order (`stallEach`), in whatever order they were listed
before, and what is let go stands in this order (`setStall_reaches`).
-/

namespace RailBus

namespace Address

theorem le_antisymm {a b : Address} (hab : ¬ b < a) (hba : ¬ a < b) : a = b := by
  by_contra hne
  exact hba (lt_of_not_lt_of_ne hab (Ne.symm hne))

/-- There is one ascending order of a list in which no address is twice. -/
theorem sort_eq {l l' : List Address} (h : l.Perm l') (hl' : l'.Pairwise (· < ·)) :
    sort l = l' := by
  have hsorted : (sort l).Pairwise fun a b => (!decide (b < a)) = true := by
    apply List.pairwise_mergeSort
    · intro a b c hab hbc
      simp only [Bool.not_eq_true', decide_eq_false_iff_not] at hab hbc ⊢
      exact List.not_lt.2 (List.le_trans (List.not_lt.1 hab) (List.not_lt.1 hbc))
    · intro a b
      simp only [Bool.or_eq_true, Bool.not_eq_true', decide_eq_false_iff_not]
      by_contra hnot
      rw [not_or, not_not, not_not] at hnot
      exact lt_irrefl a (lt_trans hnot.2 hnot.1)
  refine List.Perm.eq_of_pairwise ?_ hsorted (hl'.imp ?_) ((List.mergeSort_perm l _).trans h)
  · intro a b _ _ hab hba
    simp only [Bool.not_eq_true', decide_eq_false_iff_not] at hab hba
    exact le_antisymm hab hba
  · intro a b hab
    simp only [Bool.not_eq_true', decide_eq_false_iff_not]
    intro hba
    exact lt_irrefl a (lt_trans hab hba)

end Address

namespace NodeTable

variable {t : NodeTable} {a b : Address} {n : Node}

theorem mem_knownNodes : b ∈ t.knownNodes ↔ ∃ n, t.nodes.find? b = some n := by
  constructor
  · intro h
    obtain ⟨⟨b', n⟩, hmem, rfl⟩ := List.mem_map.1 h
    exact ⟨n, AddressMap.find?_of_mem hmem⟩
  · rintro ⟨n, hn⟩
    exact AddressMap.mem_keys_of_find? hn

/-! ## One node after the other -/

/-- Stops the listed nodes, or lets them go, one after the other. -/
def stallEach (on : Bool) (t : NodeTable) : List Address → NodeTable × List (Address × Request)
  | [] => (t, [])
  | b :: rest =>
    match t.nodes.find? b with
    | none => t.stallEach on rest
    | some n =>
      let (n, freed) := n.setStall on
      let (t, more) := (t.put b n).stallEach on rest
      (t, freed.map (b, ·) ++ more)

/-- Each of the nodes does by itself what it does, whatever the others do. -/
theorem stallEach_eq (on : Bool) {as : List Address} (hnodup : as.Nodup)
    (hknown : ∀ b ∈ as, b ∈ t.knownNodes) :
    (t.stallEach on as).1.settings = t.settings ∧
      (∀ b, (t.stallEach on as).1.nodes.find? b =
        (t.nodes.find? b).map fun n => if b ∈ as then (n.setStall on).1 else n) ∧
      (t.stallEach on as).2 = as.flatMap fun b => ((t.node b).setStall on).2.map (b, ·) := by
  induction as generalizing t with
  | nil => simp [stallEach]
  | cons c rest ih =>
    obtain ⟨hc, hrest⟩ := List.nodup_cons.1 hnodup
    obtain ⟨n, hn⟩ := mem_knownNodes.1 (hknown c List.mem_cons_self)
    have hother : ∀ b, b ≠ c → (t.put c (n.setStall on).1).nodes.find? b = t.nodes.find? b := by
      intro b hb
      rw [find?_put, if_neg hb]
    have hne : ∀ b ∈ rest, b ≠ c := by
      rintro b hb rfl
      exact hc hb
    have hstill : ∀ b ∈ rest, b ∈ (t.put c (n.setStall on).1).knownNodes := by
      intro b hb
      rw [mem_knownNodes, hother b (hne b hb), ← mem_knownNodes]
      exact hknown b (List.mem_cons_of_mem _ hb)
    obtain ⟨hsettings, hfind, hfreed⟩ := ih hrest hstill
    have hstep : t.stallEach on (c :: rest) =
        (((t.put c (n.setStall on).1).stallEach on rest).1,
          (n.setStall on).2.map (c, ·) ++ ((t.put c (n.setStall on).1).stallEach on rest).2) := by
      rw [stallEach, hn]
    rw [hstep]
    refine ⟨hsettings, ?_, ?_⟩
    · intro b
      rw [hfind]
      by_cases hb : b = c
      · subst hb
        simp [find?_put, hn, hc]
      · simp [hother b hb, hb]
    · show (n.setStall on).2.map (c, ·) ++ ((t.put c (n.setStall on).1).stallEach on rest).2 = _
      rw [hfreed, List.flatMap_cons, node_of_find? hn]
      congr 1
      refine List.flatMap_congr fun b hb => ?_
      obtain ⟨n', hn'⟩ := mem_knownNodes.1 (hknown b (List.mem_cons_of_mem _ hb))
      rw [node_of_find? hn', node_of_find? ((hother b (hne b hb)).trans hn')]

/-! ## The node and all below it -/

/-- Makes the entry of `a` if there is none. -/
def enter (t : NodeTable) (a : Address) : NodeTable := t.put a (t.node a)

theorem find?_enter (t : NodeTable) (a b : Address) :
    (t.enter a).nodes.find? b = if b = a then some (t.node a) else t.nodes.find? b :=
  find?_put t a b (t.node a)

theorem find?_enter_of_known (a : Address) (h : t.nodes.find? b = some n) :
    (t.enter a).nodes.find? b = some n := by
  rw [find?_enter]
  split
  case isTrue hb => rw [← hb, node_of_find? h]
  case isFalse => exact h

theorem node_enter (h : b ∈ (t.enter a).knownNodes) : (t.enter a).node b = t.node b := by
  obtain ⟨n, hn⟩ := mem_knownNodes.1 h
  rw [node_of_find? hn]
  rw [find?_enter] at hn
  split at hn
  case isTrue hb => rw [hb, Option.some.inj hn]
  case isFalse => exact (node_of_find? hn).symm

theorem setStall_enter (t : NodeTable) (a : Address) (on : Bool) :
    (t.enter a).setStall a on = t.setStall a on := by
  simp [setStall, enter, put, node_of_find?]

/-- The nodes that a stall at `a` reaches, in ascending order. -/
def reached (t : NodeTable) (a : Address) : List Address :=
  (t.enter a).knownNodes.filter a.isPrefixOf

theorem reached_sorted (t : NodeTable) (a : Address) : (t.reached a).Pairwise (· < ·) :=
  (t.enter a).knownNodes_sorted.filter _

theorem mem_reached : b ∈ t.reached a ↔ a.isPrefixOf b = true ∧ b ∈ (t.enter a).knownNodes := by
  rw [reached, List.mem_filter, and_comm]

/-- What is let go is what waits, node by node in ascending order. -/
theorem released_eq (t : NodeTable) (a : Address) :
    (t.setStall a false).2 = (t.reached a).flatMap fun b => (t.node b).pending.map (b, ·) := by
  have hknown : (t.enter a).nodes.find? a = some (t.node a) := by
    rw [find?_enter, if_pos rfl]
  rw [← setStall_enter, setStall_released hknown]
  refine List.flatMap_congr fun b hb => ?_
  rw [node_enter (mem_reached.1 hb).2]

/-- From `t` to `t'` a stall began, or ended, at the node at `a`, and `freed` was let go. -/
structure Reaches (t : NodeTable) (a : Address) (on : Bool) (t' : NodeTable)
    (freed : List (Address × Request)) : Prop where
  settings : t'.settings = t.settings
  /-- no node becomes known but the one at `a` -/
  known : ∀ b, b ∈ t'.knownNodes ↔ b ∈ t.knownNodes ∨ b = a
  /-- and if it does, nothing has happened to it but this -/
  fresh : a ∉ t.knownNodes → t'.nodes.find? a = some { capacity := t.defaultCredit, stalled := on }
  flags : ∀ b n, a.isPrefixOf b → t'.nodes.find? b = some n → n.stalled = on
  outside : ∀ b, ¬ a.isPrefixOf b → t'.nodes.find? b = t.nodes.find? b
  stopped : on = true → freed = [] ∧ ∀ b n, a.isPrefixOf b → t.nodes.find? b = some n →
    t'.nodes.find? b = some { n with stalled := true }
  /-- a node that is let go uses credit for the requests that waited, whether it has any or not -/
  emptied : on = false → ∀ b n, a.isPrefixOf b → t.nodes.find? b = some n →
    t'.nodes.find? b = some { n with
      stalled := false
      pending := []
      inUse := n.inUse + n.pending.countP Request.consumesCredit }
  released : on = false → ∃ nodes : List Address, nodes.Pairwise (· < ·) ∧
    (∀ b, b ∈ nodes ↔ a.isPrefixOf b ∧ b ∈ t'.knownNodes) ∧
    freed = nodes.flatMap fun b => (t.node b).pending.map (b, ·)

theorem knownNodes_setStall (t : NodeTable) (a : Address) (on : Bool) :
    (t.setStall a on).1.knownNodes = (t.enter a).knownNodes := by
  simp only [knownNodes, AddressMap.keys, setStall, AddressMap.map, List.map_map]
  rfl

theorem find?_setStall_of_known (on : Bool) (hb : a.isPrefixOf b = true)
    (h : t.nodes.find? b = some n) :
    (t.setStall a on).1.nodes.find? b = some (n.setStall on).1 := by
  have henter : (t.nodes.insert a (t.node a)).find? b = some n := find?_enter_of_known a h
  rw [find?_setStall_below t on hb, henter, Option.map_some]

theorem reaches_setStall (t : NodeTable) (a : Address) (on : Bool) :
    t.Reaches a on (t.setStall a on).1 (t.setStall a on).2 where
  settings := rfl
  known := by
    intro b
    rw [knownNodes_setStall, mem_knownNodes, mem_knownNodes, find?_enter]
    by_cases hb : b = a <;> simp [hb]
  fresh := by
    intro hunknown
    have hnone : t.nodes.find? a = none := by
      rw [mem_knownNodes] at hunknown
      exact Option.eq_none_iff_forall_ne_some.2 fun n hn => hunknown ⟨n, hn⟩
    rw [find?_setStall_below t on a.isPrefixOf_self, AddressMap.find?_insert_self, node, hnone]
    cases on <;> rfl
  flags := by
    intro b n hb hn
    rw [find?_setStall_below t on hb] at hn
    obtain ⟨n', -, rfl⟩ := Option.map_eq_some_iff.1 hn
    cases on <;> rfl
  outside := fun b hb => find?_setStall_elsewhere t on hb
  stopped := by
    rintro rfl
    refine ⟨?_, fun b n hb hn => find?_setStall_of_known true hb hn⟩
    rw [released_setStall]
    exact List.flatMap_eq_nil_iff.2 fun x _ => rfl
  emptied := by
    rintro rfl b n hb hn
    exact find?_setStall_of_known false hb hn
  released := by
    rintro rfl
    refine ⟨t.reached a, t.reached_sorted a, ?_, t.released_eq a⟩
    intro b
    rw [knownNodes_setStall]
    exact mem_reached

/-- The nodes may be stopped or let go one after the other. -/
theorem stallEach_reached (t : NodeTable) (a : Address) (on : Bool) :
    (t.enter a).stallEach on (t.reached a) = t.setStall a on := by
  have hknown : ∀ b ∈ t.reached a, b ∈ (t.enter a).knownNodes := fun b hb => (mem_reached.1 hb).2
  have hnodup : (t.reached a).Nodup := (t.enter a).nodes.keys_nodup.filter _
  obtain ⟨hsettings, hfind, hfreed⟩ := stallEach_eq on hnodup hknown
  refine Prod.ext (ext hsettings fun b => ?_) ?_
  · rw [hfind]
    by_cases hb : a.isPrefixOf b = true
    · have henter : t.nodes.insert a (t.node a) = (t.enter a).nodes := rfl
      rw [find?_setStall_below t on hb, henter]
      cases hn : (t.enter a).nodes.find? b with
      | none => rfl
      | some n =>
        have hmem : b ∈ t.reached a := mem_reached.2 ⟨hb, mem_knownNodes.2 ⟨n, hn⟩⟩
        rw [Option.map_some, Option.map_some, if_pos hmem]
    · have hnot : b ∉ t.reached a := fun hmem => hb (mem_reached.1 hmem).1
      have hne : b ≠ a := by
        rintro rfl
        exact hb b.isPrefixOf_self
      rw [find?_setStall_elsewhere t on hb, find?_enter, if_neg hne]
      simp only [hnot, if_false]
      exact Option.map_id' ..
  · rw [hfreed]
    cases on with
    | true =>
      rw [((t.reaches_setStall a true).stopped rfl).1]
      exact List.flatMap_eq_nil_iff.2 fun b _ => rfl
    | false =>
      rw [released_eq]
      refine List.flatMap_congr fun b hb => ?_
      rw [node_enter (hknown b hb)]
      rfl

/-- **A stall reaches a node and all known nodes below it, and nothing else.** They are stopped, or
are let go with all that waits for them, whatever their credit. What is let go comes node by node in
ascending order of addresses, and for each node in the order in which it came. It makes no
difference in which order the known nodes are listed before those that are reached are sorted out
and are stopped or let go one after the other. -/
theorem setStall_reaches (t : NodeTable) (a : Address) (on : Bool) :
    t.Reaches a on (t.setStall a on).1 (t.setStall a on).2 ∧
      ∀ listed : List Address, listed.Perm (t.enter a).knownNodes →
        (t.enter a).stallEach on (Address.sort (listed.filter a.isPrefixOf)) =
          t.setStall a on := by
  refine ⟨t.reaches_setStall a on, ?_⟩
  intro listed hlisted
  have hsort : Address.sort (listed.filter a.isPrefixOf) = t.reached a :=
    Address.sort_eq (hlisted.filter _) (t.reached_sorted a)
  rw [hsort, stallEach_reached]

/-- Node 1 is let go with node 1.4 below it, and node 10 is not. -/
example :
    let ten : Address := ⟨[10], by decide, by simp⟩
    let stopped := (((NodeTable.new 4 true).setStall ten true).1.setStall Link.child true).1
    let t := ((stopped.enqueue Link.grandchild Link.command).enqueue ten Link.command).enqueue
      Link.child { Link.command with payload := [7] }
    (t.setStall Link.child false).2 =
        [(Link.child, { Link.command with payload := [7] }), (Link.grandchild, Link.command)] ∧
      (t.setStall Link.child false).1.isStalled ten = true := by
  decide +kernel

end NodeTable
end RailBus
