import RailBus.Address.Map
import Mathlib.Data.List.Nodup
import Mathlib.Algebra.GroupWithZero.Nat
import Mathlib.Algebra.BigOperators.Group.List.Basic

/-!
# Laws of address maps

What can be looked up after an insertion or a change of every value, that maps are told apart by
what is found in them (`ext_find?`), and two facts that come from no address being there twice: what
is collected from the values is sorted out again by address, and a list is as long as its parts
taken address by address.
-/

namespace RailBus

theorem Address.lt_irrefl (a : Address) : ¬ a < a := List.lt_irrefl a.components

namespace AddressMap

variable {α : Type}

/-! ## Insertion -/

theorem lookup_cons_ite (a b : Address) (v : α) (l : List (Address × α)) :
    ((a, v) :: l).lookup b = if b = a then some v else l.lookup b := by
  by_cases h : b = a
  · simp [h]
  · simp [List.lookup_cons, beq_false_of_ne h, h]

theorem lookup_insertEntry (a b : Address) (v : α) (l : List (Address × α)) :
    (insertEntry a v l).lookup b = if b = a then some v else l.lookup b := by
  induction l with
  | nil => simp [insertEntry, lookup_cons_ite]
  | cons x rest ih =>
    obtain ⟨k, w⟩ := x
    by_cases hlt : a < k
    · simp [insertEntry, hlt, lookup_cons_ite]
    · by_cases hk : a = k
      · by_cases h : b = a <;> simp [insertEntry, ← hk, Address.lt_irrefl, lookup_cons_ite, h]
      · by_cases h : b = k
        · have hne : ¬ k = a := Ne.symm hk
          simp [insertEntry, hlt, hk, h, hne]
        · simp [insertEntry, hlt, hk, lookup_cons_ite, h, ih]

theorem find?_insert (m : AddressMap α) (a b : Address) (v : α) :
    (m.insert a v).find? b = if b = a then some v else m.find? b :=
  lookup_insertEntry a b v m.entries

@[simp] theorem find?_insert_self (m : AddressMap α) (a : Address) (v : α) :
    (m.insert a v).find? a = some v := by
  rw [find?_insert, if_pos rfl]

theorem insertEntry_insertEntry (a : Address) (v w : α) (l : List (Address × α)) :
    insertEntry a w (insertEntry a v l) = insertEntry a w l := by
  induction l with
  | nil => simp [insertEntry, Address.lt_irrefl]
  | cons x rest ih =>
    obtain ⟨k, u⟩ := x
    by_cases hlt : a < k
    · simp [insertEntry, hlt, Address.lt_irrefl]
    · by_cases hk : a = k
      · subst hk; simp [insertEntry, Address.lt_irrefl]
      · simp [insertEntry, hlt, hk, ih]

/-- Only the last value put at an address counts. -/
@[simp] theorem insert_insert (m : AddressMap α) (a : Address) (v w : α) :
    (m.insert a v).insert a w = m.insert a w := by
  simp only [insert, insertEntry_insertEntry]

/-! ## Change of every value -/

@[simp] theorem find?_map (m : AddressMap α) (f : Address → α → α) (b : Address) :
    (m.map f).find? b = (m.find? b).map (f b) := by
  obtain ⟨l, hl⟩ := m
  simp only [map, find?]
  clear hl
  induction l with
  | nil => rfl
  | cons x rest ih =>
    obtain ⟨k, v⟩ := x
    by_cases h : b = k
    · simp [h]
    · simp [lookup_cons_ite, h, ih]

/-! ## Every address at most once -/

theorem keys_nodup (m : AddressMap α) : m.keys.Nodup := by
  refine List.pairwise_map.2 (m.sorted.imp ?_)
  intro x y hlt heq
  rw [heq] at hlt
  exact Address.lt_irrefl _ hlt

theorem mem_keys_of_find? {m : AddressMap α} {a : Address} {v : α} (h : m.find? a = some v) :
    a ∈ m.keys := by
  obtain ⟨l, hl⟩ := m
  simp only [keys, find?] at h ⊢
  clear hl
  induction l with
  | nil => simp at h
  | cons x rest ih =>
    obtain ⟨k, w⟩ := x
    by_cases hk : a = k
    · simp [hk]
    · rw [lookup_cons_ite, if_neg hk] at h
      exact List.mem_cons_of_mem _ (ih h)

theorem find?_of_mem {m : AddressMap α} {a : Address} {v : α} (h : (a, v) ∈ m.entries) :
    m.find? a = some v := by
  obtain ⟨l, hl⟩ := m
  simp only [find?] at h ⊢
  induction l with
  | nil => simp at h
  | cons x rest ih =>
    obtain ⟨hx, hrest⟩ := List.pairwise_cons.1 hl
    rcases List.mem_cons.1 h with rfl | h
    · simp
    · have hne : a ≠ x.1 := fun e => Address.lt_irrefl a (by simpa [← e] using hx _ h)
      rw [lookup_cons_ite, if_neg hne]
      exact ih hrest h

theorem mem_of_find? {m : AddressMap α} {a : Address} {v : α} (h : m.find? a = some v) :
    (a, v) ∈ m.entries := by
  obtain ⟨⟨b, w⟩, hmem, rfl⟩ := List.mem_map.1 (mem_keys_of_find? h)
  have hw := find?_of_mem hmem
  rw [h] at hw
  cases hw
  exact hmem

/-! ## Maps in which the same is found -/

theorem entries_nodup (m : AddressMap α) : m.entries.Nodup := by
  refine m.sorted.imp ?_
  rintro x y hlt rfl
  exact Address.lt_irrefl _ hlt

/-- What is found at some addresses tells the entries there. -/
theorem filter_entries_congr {m m' : AddressMap α} (p : Address → Bool)
    (h : ∀ a, p a = true → m.find? a = m'.find? a) :
    m.entries.filter (fun x => p x.1) = m'.entries.filter fun x => p x.1 := by
  have hmem : ∀ x : Address × α, x ∈ m.entries.filter (fun x => p x.1) ↔
      x ∈ m'.entries.filter fun x => p x.1 := by
    rintro ⟨a, v⟩
    simp only [List.mem_filter, and_congr_left_iff]
    intro ha
    constructor
    · intro hv
      apply mem_of_find?
      rw [← h a ha, find?_of_mem hv]
    · intro hv
      apply mem_of_find?
      rw [h a ha, find?_of_mem hv]
  -- two sorted lists with the same members are the same list
  refine List.Perm.eq_of_pairwise ?_ (m.sorted.filter _) (m'.sorted.filter _) ?_
  · intro x y _ _ hxy hyx
    exact absurd (Address.lt_trans hxy hyx) (Address.lt_irrefl _)
  · exact (List.perm_ext_iff_of_nodup (m.entries_nodup.filter _)
      (m'.entries_nodup.filter _)).2 hmem

/-- Maps in which the same is found everywhere are the same. -/
theorem ext_find? {m m' : AddressMap α} (h : ∀ a, m.find? a = m'.find? a) : m = m' := by
  have hentries := filter_entries_congr (fun _ => true) fun a _ => h a
  simp only [List.filter_true] at hentries
  cases m
  cases m'
  cases hentries
  rfl

/-! ## Collecting from all entries -/

/-- What is collected from all entries only depends on what each gives. -/
theorem flatMap_insert {β : Type} {m : AddressMap α} {a : Address} {v w : α}
    (g : Address → α → List β) (h : m.find? a = some v) (hg : g a w = g a v) :
    (m.insert a w).entries.flatMap (fun (b, u) => g b u) =
      m.entries.flatMap fun (b, u) => g b u := by
  obtain ⟨l, hl⟩ := m
  simp only [find?, insert] at h ⊢
  induction l with
  | nil => simp at h
  | cons x rest ih =>
    obtain ⟨k, u⟩ := x
    obtain ⟨hx, hrest⟩ := List.pairwise_cons.1 hl
    rw [lookup_cons_ite] at h
    by_cases hk : a = k
    · subst hk
      rw [if_pos rfl] at h
      cases h
      simp [insertEntry, Address.lt_irrefl, hg]
    · rw [if_neg hk] at h
      -- the entry stands behind this one, so `a` is the greater address
      have hlt : ¬ a < k := fun hlt =>
        Address.lt_irrefl a (Address.lt_trans hlt (hx (a, v) (mem_of_find? (m := ⟨rest, hrest⟩) h)))
      simp only [insertEntry, hlt, hk, if_false, List.flatMap_cons, ih hrest h]

end AddressMap

/-- What a list pairs with `a`, in order. -/
def valuesAt {β : Type} (a : Address) (l : List (Address × β)) : List β :=
  l.filterMap fun x => if x.1 = a then some x.2 else none

section valuesAt

variable {α β : Type}

@[simp] theorem valuesAt_nil (a : Address) : valuesAt a ([] : List (Address × β)) = [] := rfl

@[simp] theorem valuesAt_append (a : Address) (l l' : List (Address × β)) :
    valuesAt a (l ++ l') = valuesAt a l ++ valuesAt a l' := List.filterMap_append

theorem valuesAt_cons (a b : Address) (v : β) (l : List (Address × β)) :
    valuesAt a ((b, v) :: l) = if b = a then v :: valuesAt a l else valuesAt a l := by
  by_cases h : b = a <;> simp [valuesAt, h]

theorem mem_valuesAt {a : Address} {v : β} {l : List (Address × β)} :
    v ∈ valuesAt a l ↔ (a, v) ∈ l := by
  induction l with
  | nil => simp
  | cons x rest ih =>
    obtain ⟨b, w⟩ := x
    rw [valuesAt_cons]
    by_cases h : b = a
    · simp [h, ih]
    · simp [h, ih, Ne.symm h]

theorem valuesAt_map_pair (a b : Address) (vs : List β) :
    valuesAt a (vs.map (b, ·)) = if b = a then vs else [] := by
  induction vs with
  | nil => simp
  | cons v vs ih =>
    rw [List.map_cons, valuesAt_cons, ih]
    by_cases h : b = a <;> simp [h]

namespace AddressMap

/-- What is collected from all values, each piece under its address, holds for one address what
its own value gave. -/
theorem valuesAt_flatMap (m : AddressMap α) (g : Address → α → List β) (a : Address) :
    valuesAt a (m.entries.flatMap fun (b, v) => (g b v).map (b, ·)) =
      ((m.find? a).map (g a)).getD [] := by
  obtain ⟨l, hl⟩ := m
  simp only [find?]
  induction l with
  | nil => rfl
  | cons x rest ih =>
    obtain ⟨k, v⟩ := x
    obtain ⟨hx, hrest⟩ := List.pairwise_cons.1 hl
    rw [List.flatMap_cons, valuesAt_append, valuesAt_map_pair, ih hrest, lookup_cons_ite]
    by_cases h : a = k
    · -- no later entry is at the same address
      have hnone : rest.lookup a = none := by
        rw [List.lookup_eq_none_iff]
        intro y hy
        have hne : a ≠ y.1 := fun e => Address.lt_irrefl k (by simpa [← e, h] using hx y hy)
        simpa using hne
      rw [if_pos h, if_pos h.symm, hnone, h]
      simp
    · rw [if_neg h, if_neg (Ne.symm h)]
      simp

theorem sum_indicator (b : Address) (l : List Address) :
    (l.map fun a => if b = a then 1 else 0).sum = l.count b := by
  induction l with
  | nil => rfl
  | cons a l ih =>
    by_cases h : b = a
    · subst h
      simp [ih, Nat.add_comm]
    · simp [h, ih, List.count_cons_of_ne (Ne.symm h)]

/-- A list all of whose addresses are in the map is as long as its parts together. -/
theorem sum_length_valuesAt (m : AddressMap α) (l : List (Address × β))
    (h : ∀ x ∈ l, x.1 ∈ m.keys) :
    (m.keys.map fun a => (valuesAt a l).length).sum = l.length := by
  induction l with
  | nil => simp
  | cons x rest ih =>
    obtain ⟨b, v⟩ := x
    have hlen : ∀ a, (valuesAt a ((b, v) :: rest)).length =
        (valuesAt a rest).length + if b = a then 1 else 0 := by
      intro a
      rw [valuesAt_cons]
      split <;> simp
    have hb : m.keys.count b = 1 := List.count_eq_one_of_mem m.keys_nodup (h (b, v) (by simp))
    simp only [hlen, List.sum_map_add, sum_indicator, hb, List.length_cons]
    rw [ih fun y hy => h y (List.mem_cons_of_mem _ hy)]

end AddressMap
end valuesAt
end RailBus
