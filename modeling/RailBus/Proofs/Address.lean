import RailBus.Address
import Mathlib.Data.List.Infix

/-!
# Nodes above and below

An address is made of components and gives them back (`ofComponents_eq_ok_iff`). It is a prefix of
another where its node lies above the other's or is the same. The prefixes of one address are all
above or below each other.
-/

namespace RailBus.Address

variable {a b c : Address}

/-! ## Components -/

theorem components_of_ofComponents {components : Bytes} {a : Address}
    (h : ofComponents components = .ok a) : a.components = components := by
  unfold ofComponents at h
  split at h
  · split at h
    · cases h; rfl
    · cases h
  · cases h

theorem ofComponents_components (a : Address) : ofComponents a.components = .ok a := by
  rw [ofComponents, dif_pos a.depth_le, dif_pos (by simpa using a.ne_zero)]

theorem ofComponents_eq_ok_iff {components : Bytes} :
    ofComponents components = .ok a ↔ a.components = components := by
  refine ⟨components_of_ofComponents, ?_⟩
  rintro rfl
  exact a.ofComponents_components

theorem zero_notMem_components (a : Address) : 0 ∉ a.components := fun h => a.ne_zero 0 h rfl

theorem exists_components_iff {components : Bytes} :
    (∃ a : Address, a.components = components) ↔ components.length ≤ maxDepth ∧ 0 ∉ components := by
  constructor
  · rintro ⟨a, rfl⟩
    exact ⟨a.depth_le, a.zero_notMem_components⟩
  · rintro ⟨hdepth, hzero⟩
    exact ⟨⟨components, hdepth, fun c hc h => hzero (h ▸ hc)⟩, rfl⟩

/-! ## Prefixes -/

theorem isPrefixOf_iff : a.isPrefixOf b ↔ a.components <+: b.components :=
  List.isPrefixOf_iff_prefix

@[simp] theorem isPrefixOf_self (a : Address) : a.isPrefixOf a = true :=
  isPrefixOf_iff.2 List.prefix_rfl

theorem isPrefixOf_trans (h : a.isPrefixOf b) (h' : b.isPrefixOf c) : a.isPrefixOf c :=
  isPrefixOf_iff.2 ((isPrefixOf_iff.1 h).trans (isPrefixOf_iff.1 h'))

theorem isPrefixOf_or_isPrefixOf (h : a.isPrefixOf c) (h' : b.isPrefixOf c) :
    a.isPrefixOf b ∨ b.isPrefixOf a := by
  simp only [isPrefixOf_iff] at h h' ⊢
  exact List.prefix_or_prefix_of_prefix h h'

theorem isPrefixOf_of_isAncestorOf (h : a.isAncestorOf b) : a.isPrefixOf b :=
  (Bool.and_eq_true_iff.1 h).1

/-- A node that lies above another and is not the same is an ancestor. -/
theorem isAncestorOf_iff : a.isAncestorOf b ↔ a.isPrefixOf b ∧ a ≠ b := by
  simp only [isAncestorOf, Bool.and_eq_true, decide_eq_true_eq]
  constructor
  · rintro ⟨h, hlt⟩
    refine ⟨h, fun heq => ?_⟩
    rw [heq] at hlt
    exact Nat.lt_irrefl _ hlt
  · rintro ⟨h, hne⟩
    refine ⟨h, Nat.lt_of_not_le fun hle => hne ?_⟩
    exact eq_of_components_eq ((isPrefixOf_iff.1 h).eq_of_length_le hle)

/-- Of two nodes above a third the one that is not below the other is its ancestor. -/
theorem isAncestorOf_of_not_isPrefixOf (h : a.isPrefixOf c) (h' : b.isPrefixOf c)
    (hnot : ¬ b.isPrefixOf a) : a.isAncestorOf b := by
  rw [isAncestorOf_iff]
  refine ⟨(isPrefixOf_or_isPrefixOf h h').resolve_right hnot, ?_⟩
  rintro rfl
  exact hnot a.isPrefixOf_self

theorem isAncestorOf_of_isPrefixOf (h : a.isAncestorOf b) (h' : b.isPrefixOf c) :
    a.isAncestorOf c := by
  simp only [isAncestorOf, Bool.and_eq_true, decide_eq_true_eq] at h ⊢
  have hle : b.depth ≤ c.depth := (isPrefixOf_iff.1 h').length_le
  exact ⟨isPrefixOf_trans h.1 h', Nat.lt_of_lt_of_le h.2 hle⟩

end RailBus.Address
