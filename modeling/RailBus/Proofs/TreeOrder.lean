import RailBus.Proofs.Address
import Mathlib.Order.Defs.Unbundled
import Mathlib.Logic.Relation

/-!
# The order of a tree walk

Addresses are ordered as the lists of their components. So a node comes before all nodes below it,
and nothing comes in between but these (`isPrefixOf_of_between`): in a sorted list the nodes of a
subtree stand in one block (`filter_isPrefixOf_inBlock`).
-/

namespace RailBus.Address

variable {a b c d : Address} {l : List Address}

/-! ## Parents and children -/

theorem parent?_of_child {p : Address} {component : UInt8}
    (h : a.components = p.components ++ [component]) : a.parent? = some p := by
  have hroot : ¬ a.isRoot = true := by simp [isRoot, h]
  rw [parent?, if_neg hroot]
  congr 1
  apply eq_of_components_eq
  show a.components.dropLast = p.components
  rw [h, List.dropLast_concat]

/-- Every node but the interface is the child of another. -/
theorem eq_root_or_child (a : Address) :
    a = root ∨ ∃ (p : Address) (component : UInt8), a.components = p.components ++ [component] := by
  rcases List.eq_nil_or_concat' a.components with hnil | ⟨front, component, hcomponents⟩
  · exact .inl (eq_of_components_eq hnil)
  · have hdepth := a.depth_le
    have hzero := a.zero_notMem_components
    rw [hcomponents, List.length_append] at hdepth
    rw [hcomponents, List.mem_append, not_or] at hzero
    obtain ⟨p, rfl⟩ := exists_components_iff.2 ⟨Nat.le_of_lt hdepth, hzero.1⟩
    exact .inr ⟨p, component, hcomponents⟩

/-- There is a child for every component but zero, as long as addresses may be deeper. -/
theorem child_isOk_iff (a : Address) (component : UInt8) :
    (∃ b, a.child component = .ok b) ↔ component ≠ 0 ∧ a.depth < maxDepth := by
  simp only [child, ofComponents_eq_ok_iff, exists_components_iff, List.length_append,
    List.mem_append, List.mem_singleton, a.zero_notMem_components, false_or]
  rw [and_comm, ne_comm]
  exact Iff.rfl

theorem parent?_child {component : UInt8} (h : a.child component = .ok b) :
    b.parent? = some a :=
  parent?_of_child (components_of_ofComponents h)

/-! ## Above and before -/

/-- A node comes before the nodes below it. -/
theorem lt_of_isAncestorOf (h : a.isAncestorOf b) : a < b := by
  obtain ⟨hbelow, hne⟩ := isAncestorOf_iff.1 h
  obtain ⟨more, hmore⟩ := isPrefixOf_iff.1 hbelow
  have hnonempty : more ≠ [] := by
    rintro rfl
    rw [List.append_nil] at hmore
    exact hne (eq_of_components_eq hmore)
  obtain ⟨x, rest, rfl⟩ := List.exists_cons_of_ne_nil hnonempty
  show a.components < b.components
  have hlt : a.components ++ [] < a.components ++ x :: rest :=
    List.append_left_lt (List.nil_lt_cons x rest)
  rwa [List.append_nil, hmore] at hlt

theorem isStrictOrder_isAncestorOf : IsStrictOrder Address fun a b => a.isAncestorOf b where
  irrefl _ h := (isAncestorOf_iff.1 h).2 rfl
  trans _ _ _ hab hbc := isAncestorOf_of_isPrefixOf hab (isPrefixOf_of_isAncestorOf hbc)

theorem isPrefixOf_iff_reflGen :
    a.isPrefixOf b ↔ Relation.ReflGen (fun a b : Address => a.isAncestorOf b) a b := by
  rw [Relation.reflGen_iff, isAncestorOf_iff]
  constructor
  · intro h
    by_cases hba : b = a
    · exact .inl hba
    · exact .inr ⟨h, Ne.symm hba⟩
  · rintro (rfl | ⟨h, -⟩)
    · exact isPrefixOf_self _
    · exact h

/-! ## Subtrees in a sorted list -/

/-- Lists that lie between two with the same front have it too. -/
theorem prefix_of_between {front bs cs ds : Bytes} (hbs : front <+: bs) (hds : front <+: ds)
    (hbc : ¬ cs < bs) (hcd : ¬ ds < cs) : front <+: cs := by
  induction front generalizing bs cs ds with
  | nil => exact List.nil_prefix
  | cons x front ih =>
    obtain ⟨bs, rfl, hfront⟩ := List.cons_prefix_iff.1 hbs
    obtain ⟨ds, rfl, hfront'⟩ := List.cons_prefix_iff.1 hds
    cases cs with
    | nil => exact absurd (List.nil_lt_cons x bs) hbc
    | cons y cs =>
      rw [List.cons_lt_cons_iff, not_or] at hbc hcd
      obtain rfl : y = x := UInt8.le_antisymm (UInt8.not_lt.1 hcd.1) (UInt8.not_lt.1 hbc.1)
      have hbc' : ¬ cs < bs := fun h => hbc.2 ⟨rfl, h⟩
      have hcd' : ¬ ds < cs := fun h => hcd.2 ⟨rfl, h⟩
      exact (List.prefix_cons_inj y).2 (ih hfront hfront' hbc' hcd')

theorem isPrefixOf_of_between (hb : a.isPrefixOf b) (hd : a.isPrefixOf d) (hbc : ¬ c < b)
    (hcd : ¬ d < c) : a.isPrefixOf c := by
  rw [isPrefixOf_iff] at hb hd ⊢
  exact prefix_of_between hb hd hbc hcd

theorem lt_asymm (h : a < b) : ¬ b < a := fun h' => List.lt_irrefl _ (lt_trans h h')

/-- Once a subtree is entered its nodes come one after the other. -/
theorem filter_isPrefixOf_atFront (hb : a.isPrefixOf b) (hl : (b :: l).Pairwise (· < ·)) :
    l.filter a.isPrefixOf <+: l := by
  induction l generalizing b with
  | nil => exact List.prefix_rfl
  | cons c rest ih =>
    obtain ⟨hlt, hrest⟩ := List.pairwise_cons.1 hl
    by_cases hc : a.isPrefixOf c = true
    · rw [List.filter_cons_of_pos hc]
      exact (List.prefix_cons_inj c).2 (ih hc hrest)
    · -- the subtree is left at `c`, and no later node belongs to it
      have hnone : rest.filter a.isPrefixOf = [] := by
        refine List.filter_eq_nil_iff.2 fun d hd ha => hc ?_
        have hcd : c < d := (List.pairwise_cons.1 hrest).1 d hd
        exact isPrefixOf_of_between hb ha (lt_asymm (hlt c List.mem_cons_self)) (lt_asymm hcd)
      rw [List.filter_cons_of_neg hc, hnone]
      exact List.nil_prefix

theorem filter_isPrefixOf_inBlock (a : Address) (hl : l.Pairwise (· < ·)) :
    l.filter a.isPrefixOf <:+: l := by
  induction l with
  | nil => exact List.infix_rfl
  | cons b rest ih =>
    by_cases hb : a.isPrefixOf b = true
    · rw [List.filter_cons_of_pos hb]
      exact ((List.prefix_cons_inj b).2 (filter_isPrefixOf_atFront hb hl)).isInfix
    · rw [List.filter_cons_of_neg hb]
      exact (ih hl.of_cons).trans (List.suffix_cons b rest).isInfix

/-- A list that is sorted and has no node twice ascends. -/
theorem pairwise_lt_of_sorted (hnodup : l.Nodup) (hsorted : l.Pairwise fun b c => ¬ c < b) :
    l.Pairwise (· < ·) := by
  refine (hsorted.and hnodup).imp ?_
  rintro b c ⟨hnot, hne⟩
  exact lt_of_not_lt_of_ne hnot (Ne.symm hne)

end RailBus.Address
