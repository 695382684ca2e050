import RailBus.Address.Text
import RailBus.Proofs.Subtree
import RailBus.Proofs.TreeOrder

/-!
# Addresses in a fixed number of bytes

An address may be kept in as many bytes as the deepest needs, with the number of those that are
used. Two addresses so kept are compared by all bytes, used or not, so nothing may be left in a byte
that is no longer used (`Canonical`). However an address was come by (`Origin`), it is kept in one
way, and is the same, or comes before another, if its components are the same or come before those
of the other (`stored_sorted_as_tree`).
-/

namespace RailBus.Address

/-- An address in a fixed number of bytes, of which the first `used` are its components. -/
@[ext] structure Stored where
  bytes : Bytes
  used : UInt8
  length_bytes : bytes.length = maxDepth
  deriving DecidableEq

namespace Stored

def components (x : Stored) : Bytes := x.bytes.take x.used.toNat

/-- Byte by byte, and where all bytes are the same, by the number of those that are used. -/
instance : LT Stored := ⟨fun x y => x.bytes < y.bytes ∨ x.bytes = y.bytes ∧ x.used < y.used⟩

instance (x y : Stored) : Decidable (x < y) :=
  inferInstanceAs (Decidable (x.bytes < y.bytes ∨ x.bytes = y.bytes ∧ x.used < y.used))

/-- Copies components over zeros. -/
def ofComponents? (components : Bytes) : Option Stored :=
  if h : components.length ≤ maxDepth ∧ 0 ∉ components then
    some
      { bytes := components ++ (List.replicate maxDepth 0).drop components.length
        used := UInt8.ofNat components.length
        length_bytes := by
          simp only [List.length_append, List.length_drop, List.length_replicate]
          omega }
  else none

def child? (x : Stored) (component : UInt8) : Option Stored :=
  ofComponents? (x.components ++ [component])

/-- Clears the last byte that is used. -/
def parent? (x : Stored) : Option Stored :=
  if x.used = 0 then none
  else some
    { bytes := x.bytes.set (x.used - 1).toNat 0
      used := x.used - 1
      length_bytes := by rw [List.length_set, x.length_bytes] }

/-- There are components in the bytes that are used, and zeros in the others. -/
structure Canonical (x : Stored) : Prop where
  used_le : x.used.toNat ≤ maxDepth
  ne_zero : ∀ b ∈ x.bytes.take x.used.toNat, b ≠ 0
  eq_zero : ∀ b ∈ x.bytes.drop x.used.toNat, b = 0

end Stored

/-- How an address was come by. -/
inductive Origin
  | components (cs : Bytes)
  | stack (bs : Bytes)
  | line (bs : Bytes)
  | text (s : String)
  | child (o : Origin) (component : UInt8)
  | parent (o : Origin)

namespace Origin

def address? : Origin → Option Address
  | components cs => (ofComponents cs).toOption
  | stack bs => (ofStack bs).toOption
  | line bs => (read bs).toOption.map Prod.fst
  | text s => (parse s).toOption
  | child o c => o.address?.bind fun a => (a.child c).toOption
  | parent o => o.address?.bind parent?

/-- The address as it is kept. What is read is stored by its components; from there a child or the
parent is made of what is stored. -/
def stored? : Origin → Option Stored
  | components cs => Stored.ofComponents? cs
  | stack bs => (ofStack bs).toOption.bind fun a => Stored.ofComponents? a.components
  | line bs => ((read bs).toOption.map Prod.fst).bind fun a => Stored.ofComponents? a.components
  | text s => (parse s).toOption.bind fun a => Stored.ofComponents? a.components
  | child o c => o.stored?.bind fun x => x.child? c
  | parent o => o.stored?.bind Stored.parent?

end Origin

/-- The one way to keep an address. -/
def stored (a : Address) : Stored where
  bytes := a.components ++ (List.replicate maxDepth 0).drop a.components.length
  used := UInt8.ofNat a.components.length
  length_bytes := by
    have h := a.depth_le
    simp only [List.length_append, List.length_drop, List.length_replicate]
    omega

variable {a b : Address}

/-! ## One way to keep an address -/

theorem toNat_used_stored (a : Address) : a.stored.used.toNat = a.depth := by
  have h := a.depth_le
  simp only [maxDepth] at h
  show (UInt8.ofNat a.components.length).toNat = a.components.length
  rw [UInt8.toNat_ofNat', Nat.mod_eq_of_lt (by omega)]

theorem components_stored (a : Address) : a.stored.components = a.components := by
  rw [Stored.components, toNat_used_stored]
  exact List.take_left

theorem canonical_stored (a : Address) : a.stored.Canonical where
  used_le := by
    rw [toNat_used_stored]
    exact a.depth_le
  ne_zero := by
    have h := a.components_stored
    rw [Stored.components] at h
    rw [h]
    exact a.ne_zero
  eq_zero := by
    have h : a.stored.bytes.drop a.depth = (List.replicate maxDepth 0).drop a.depth :=
      List.drop_left
    rw [toNat_used_stored, h, List.drop_replicate]
    exact fun b hb => List.eq_of_mem_replicate hb

theorem stored_injective (h : a.stored = b.stored) : a = b := by
  apply eq_of_components_eq
  rw [← components_stored a, h, components_stored]

/-! ## However it was come by -/

theorem ofComponents?_eq (cs : Bytes) :
    Stored.ofComponents? cs = (ofComponents cs).toOption.map stored := by
  by_cases h : cs.length ≤ maxDepth ∧ 0 ∉ cs
  · obtain ⟨a, rfl⟩ := exists_components_iff.2 h
    rw [ofComponents_components, Stored.ofComponents?, dif_pos h]
    rfl
  · cases hof : ofComponents cs with
    | ok a => exact absurd (exists_components_iff.1 ⟨a, components_of_ofComponents hof⟩) h
    | error e =>
      rw [Stored.ofComponents?, dif_neg h]
      rfl

theorem bind_ofComponents? (a : Option Address) :
    (a.bind fun a => Stored.ofComponents? a.components) = a.map stored := by
  cases a with
  | none => rfl
  | some a =>
    show Stored.ofComponents? a.components = some a.stored
    rw [ofComponents?_eq, ofComponents_components]
    rfl

theorem child?_stored (a : Address) (c : UInt8) :
    a.stored.child? c = (a.child c).toOption.map stored := by
  rw [Stored.child?, components_stored, ofComponents?_eq]
  rfl

theorem bytes_stored (a : Address) :
    a.stored.bytes = a.components ++ List.replicate (maxDepth - a.depth) 0 := by
  rw [← List.drop_replicate]
  rfl

/-- The byte that is cleared is the last component, so that only zeros are left behind the rest. -/
theorem parent?_stored_of_child {p : Address} {c : UInt8}
    (h : a.components = p.components ++ [c]) : a.stored.parent? = some p.stored := by
  have hlength : a.depth = p.depth + 1 := by simp [depth, h]
  have hused : a.stored.used.toNat = p.depth + 1 := by rw [toNat_used_stored, hlength]
  have hne : a.stored.used ≠ 0 := by
    intro hzero
    rw [hzero] at hused
    cases hused
  have hone : 1 ≤ a.stored.used := by
    rw [UInt8.le_iff_toNat_le, hused]
    exact Nat.succ_le_succ (Nat.zero_le _)
  have hleft : (a.stored.used - 1).toNat = p.depth := by
    rw [UInt8.toNat_sub_of_le _ _ hone, hused]
    rfl
  have hroom : maxDepth - p.depth = maxDepth - a.depth + 1 := by
    have := a.depth_le
    simp only [depth] at hlength ⊢
    omega
  have hbytes : a.stored.bytes.set p.depth 0 = p.stored.bytes := by
    have hset : ∀ rest : Bytes,
        (p.components ++ c :: rest).set p.depth 0 = p.components ++ 0 :: rest := by
      intro rest
      rw [depth, List.set_append_right _ _ (Nat.le_refl _), Nat.sub_self]
      rfl
    rw [bytes_stored, bytes_stored, h, hroom, List.replicate_succ, List.append_assoc]
    exact hset _
  rw [Stored.parent?, if_neg hne, Option.some_inj]
  refine Stored.ext ?_ ?_
  · show a.stored.bytes.set (a.stored.used - 1).toNat 0 = p.stored.bytes
    rw [hleft, hbytes]
  · rw [← UInt8.toNat_inj, toNat_used_stored]
    exact hleft

theorem parent?_stored (a : Address) : a.stored.parent? = a.parent?.map stored := by
  obtain rfl | ⟨p, c, h⟩ := a.eq_root_or_child
  · rfl
  · rw [parent?_stored_of_child h, parent?_of_child h]
    rfl

/-- However an address was come by, it is kept in its one way. -/
theorem stored?_eq (o : Origin) : o.stored? = o.address?.map stored := by
  induction o with
  | components cs => exact ofComponents?_eq cs
  | stack bs => exact bind_ofComponents? _
  | line bs => exact bind_ofComponents? _
  | text s => exact bind_ofComponents? _
  | child o c ih =>
    rw [Origin.stored?, Origin.address?, ih]
    cases o.address? with
    | none => rfl
    | some a => exact a.child?_stored c
  | parent o ih =>
    rw [Origin.stored?, Origin.address?, ih]
    cases o.address? with
    | none => rfl
    | some a => exact a.parent?_stored

/-! ## The order of what is kept -/

/-- With zeros behind them, components that are none are in the order of their lists. -/
theorem append_zeros_lt_iff {n : Nat} {cs ds : Bytes} (hcs : cs.length ≤ n) (hds : ds.length ≤ n)
    (hne : ∀ c ∈ cs, c ≠ 0) (hne' : ∀ d ∈ ds, d ≠ 0) :
    cs ++ (List.replicate n 0).drop cs.length < ds ++ (List.replicate n 0).drop ds.length ↔
      cs < ds := by
  induction n generalizing cs ds with
  | zero =>
    rw [List.eq_nil_of_length_eq_zero (Nat.le_zero.1 hcs),
      List.eq_nil_of_length_eq_zero (Nat.le_zero.1 hds)]
    exact Iff.rfl
  | succ n ih =>
    cases cs with
    | nil =>
      cases ds with
      | nil => simp [List.lt_irrefl]
      | cons d ds =>
        have hd : 0 < d := UInt8.pos_iff_ne_zero.2 (hne' d List.mem_cons_self)
        simp [List.replicate_succ, List.cons_lt_cons_iff, hd]
    | cons c cs =>
      cases ds with
      | nil =>
        have hc : c ≠ 0 := hne c List.mem_cons_self
        simp [List.replicate_succ, List.cons_lt_cons_iff, hc]
      | cons d ds =>
        have hrest := ih (Nat.le_of_succ_le_succ hcs) (Nat.le_of_succ_le_succ hds)
          (fun x hx => hne x (List.mem_cons_of_mem _ hx))
          (fun x hx => hne' x (List.mem_cons_of_mem _ hx))
        simp only [List.cons_append, List.replicate_succ, List.length_cons, List.drop_succ_cons,
          List.cons_lt_cons_iff, hrest]

theorem bytes_stored_lt_iff (a b : Address) : a.stored.bytes < b.stored.bytes ↔ a < b :=
  append_zeros_lt_iff a.depth_le b.depth_le a.ne_zero b.ne_zero

/-- The number of bytes that are used never decides. -/
theorem stored_lt_iff (a b : Address) : a.stored < b.stored ↔ a < b := by
  rw [← bytes_stored_lt_iff]
  refine ⟨?_, .inl⟩
  rintro (hlt | ⟨hbytes, hused⟩)
  · exact hlt
  · -- with the same bytes neither comes before the other
    have hab : ¬ a < b := by
      rw [← bytes_stored_lt_iff, hbytes]
      exact List.lt_irrefl _
    have hba : ¬ b < a := by
      rw [← bytes_stored_lt_iff, hbytes]
      exact List.lt_irrefl _
    rw [le_antisymm hba hab] at hused
    exact absurd hused (UInt8.lt_irrefl _)

theorem compare_eq_lt_iff (a b : Address) : a.compare b = .lt ↔ a < b := by
  unfold compare
  split
  case isTrue h => simp [h]
  case isFalse h => split <;> simp [h]

theorem compare_eq_eq_iff (a b : Address) : a.compare b = .eq ↔ a = b := by
  unfold compare
  split
  case isTrue h =>
    have hne : a ≠ b := by
      rintro rfl
      exact lt_irrefl a h
    simp [hne]
  case isFalse => split <;> simp_all

/-- **Addresses are kept in one way and sort as a tree is walked.** However an address was come by,
its components stand in the bytes that are used and zeros in the others. So two addresses are the
same, as they are kept, if they have the same components, and one comes before another if its
components come first as a list. A node comes before all below it, and in any list that is sorted
and has no address twice a node and all below it stand in one block. A node has a child for every
component but zero unless it is as deep as addresses go, and is the parent of each. To lie above is
a strict order, and `isPrefixOf` is to lie above or to be the same. -/
theorem stored_sorted_as_tree :
    (∀ o : Origin, o.stored? = o.address?.map stored) ∧
      (∀ (o : Origin) (x : Stored), o.stored? = some x → x.Canonical) ∧
      (∀ a b : Address,
        (a.stored.components = a.components ∧ a.stored.used.toNat = a.depth) ∧
          (a.stored = b.stored ↔ a.components = b.components) ∧
          (a.stored < b.stored ↔ a.components < b.components) ∧
          (a.compare b = .lt ↔ a.stored < b.stored) ∧ (a.compare b = .eq ↔ a.stored = b.stored) ∧
          (a.isAncestorOf b → a.stored < b.stored)) ∧
      (∀ (a : Address) (l : List Address), l.Nodup → l.Pairwise (fun b c => ¬ c.stored < b.stored) →
        l.filter a.isPrefixOf <:+: l) ∧
      (∀ (a : Address) (component : UInt8),
        ((∃ b, a.child component = .ok b) ↔ component ≠ 0 ∧ a.depth < maxDepth) ∧
          ∀ b, a.child component = .ok b → b.parent? = some a) ∧
      IsStrictOrder Address (fun a b => a.isAncestorOf b) ∧
      ∀ a b : Address,
        a.isPrefixOf b ↔ Relation.ReflGen (fun a b : Address => a.isAncestorOf b) a b := by
  have hstored : ∀ a b : Address, a.stored = b.stored ↔ a = b := fun a b =>
    ⟨stored_injective, congrArg stored⟩
  refine ⟨stored?_eq, ?_, ?_, ?_, ?_, isStrictOrder_isAncestorOf, fun a b => isPrefixOf_iff_reflGen⟩
  · intro o x hx
    rw [stored?_eq] at hx
    obtain ⟨a, -, rfl⟩ := Option.map_eq_some_iff.1 hx
    exact a.canonical_stored
  · intro a b
    refine ⟨⟨a.components_stored, a.toNat_used_stored⟩, ?_, stored_lt_iff a b, ?_, ?_, ?_⟩
    · exact (hstored a b).trans ⟨congrArg components, eq_of_components_eq⟩
    · rw [compare_eq_lt_iff, stored_lt_iff]
    · rw [compare_eq_eq_iff, hstored]
    · intro h
      exact (stored_lt_iff a b).2 (lt_of_isAncestorOf h)
  · intro a l hnodup hsorted
    simp only [stored_lt_iff] at hsorted
    exact a.filter_isPrefixOf_inBlock (pairwise_lt_of_sorted hnodup hsorted)
  · exact fun a component => ⟨a.child_isOk_iff component, fun b => parent?_child⟩

/-- A node come by as the parent of its child is kept as the one that is read from a stack. -/
theorem parent_kept_as_read :
    (Origin.parent (.child (.text "1. +04") 7)).stored? = (Origin.stack [1, 4, 0]).stored? ∧
      (∃ x, (Origin.stack [1, 4, 0]).stored? = some x ∧ x.Canonical) ∧
      Link.child.isAncestorOf Link.grandchild ∧ Link.child.stored < Link.grandchild.stored ∧
      [root, Link.child, Link.grandchild, Link.neighbour].filter Link.child.isPrefixOf <:+:
        [root, Link.child, Link.grandchild, Link.neighbour] ∧
      Link.child.child 4 = .ok Link.grandchild ∧ Link.grandchild.parent? = some Link.child := by
  obtain ⟨horigin, hcanonical, horder, hblock, hchild, -⟩ := stored_sorted_as_tree
  have hread : (Origin.stack [1, 4, 0]).address? = some Link.grandchild := by decide +kernel
  have hstored : (Origin.stack [1, 4, 0]).stored? = some Link.grandchild.stored := by
    rw [horigin, hread]
    rfl
  have hparent : (Origin.parent (.child (.text "1. +04") 7)).address? = some Link.grandchild := by
    decide +kernel
  have habove : Link.child.isAncestorOf Link.grandchild = true := by decide
  have hbelow : Link.child.child 4 = .ok Link.grandchild := rfl
  refine ⟨?_, ⟨_, hstored, hcanonical _ _ hstored⟩, habove, ?_, ?_, hbelow, ?_⟩
  · rw [horigin, hparent, hstored]
    rfl
  · exact (horder _ _).2.2.2.2.2 habove
  · exact hblock _ _ (by decide) (by decide)
  · exact (hchild _ _).2 _ hbelow

end RailBus.Address
