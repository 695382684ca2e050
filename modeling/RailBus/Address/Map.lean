import RailBus.Address

/-!
# Maps from addresses

Finite maps kept as lists in strictly ascending order of addresses, so that equal maps are equal
values and every walk over a map is in address order.
-/

namespace RailBus

structure AddressMap (α : Type) where
  entries : List (Address × α) := []
  sorted : entries.Pairwise (fun x y => x.1 < y.1) := by exact .nil

namespace AddressMap

variable {α : Type}

def find? (m : AddressMap α) (a : Address) : Option α := m.entries.lookup a

def keys (m : AddressMap α) : List Address := m.entries.map (·.1)

/-- Puts `v` at `a`, in its place in the order. -/
def insertEntry (a : Address) (v : α) : List (Address × α) → List (Address × α)
  | [] => [(a, v)]
  | (b, w) :: rest =>
    if a < b then (a, v) :: (b, w) :: rest
    else if a = b then (a, v) :: rest
    else (b, w) :: insertEntry a v rest

theorem mem_insertEntry {a : Address} {v : α} {l : List (Address × α)} {x : Address × α}
    (h : x ∈ insertEntry a v l) : x = (a, v) ∨ x ∈ l := by
  induction l with
  | nil => simpa [insertEntry] using h
  | cons y rest ih =>
    simp only [insertEntry] at h
    split at h
    · simpa using h
    · split at h
      · rcases List.mem_cons.1 h with h | h
        · exact .inl h
        · exact .inr (List.mem_cons_of_mem _ h)
      · rcases List.mem_cons.1 h with h | h
        · exact .inr (h ▸ List.mem_cons_self)
        · exact (ih h).imp id (List.mem_cons_of_mem _)

theorem sorted_insertEntry {a : Address} {v : α} {l : List (Address × α)}
    (h : l.Pairwise (fun x y => x.1 < y.1)) :
    (insertEntry a v l).Pairwise (fun x y => x.1 < y.1) := by
  induction l with
  | nil => simp [insertEntry]
  | cons y rest ih =>
    obtain ⟨hy, hrest⟩ := List.pairwise_cons.1 h
    simp only [insertEntry]
    split
    case isTrue hlt =>
      refine List.pairwise_cons.2 ⟨fun x hx => ?_, h⟩
      rcases List.mem_cons.1 hx with rfl | hx
      · exact hlt
      · exact Address.lt_trans hlt (hy x hx)
    case isFalse hlt =>
      split
      case isTrue heq => exact List.pairwise_cons.2 ⟨fun x hx => heq ▸ hy x hx, hrest⟩
      case isFalse hne =>
        refine List.pairwise_cons.2 ⟨fun x hx => ?_, ih hrest⟩
        rcases mem_insertEntry hx with rfl | hx
        · exact Address.lt_of_not_lt_of_ne hlt hne
        · exact hy x hx

def insert (m : AddressMap α) (a : Address) (v : α) : AddressMap α :=
  ⟨insertEntry a v m.entries, sorted_insertEntry m.sorted⟩

/-- Changes every value, knowing its address. -/
def map (m : AddressMap α) (f : Address → α → α) : AddressMap α :=
  ⟨m.entries.map fun (a, v) => (a, f a v), List.pairwise_map.2 m.sorted⟩

end AddressMap
end RailBus
