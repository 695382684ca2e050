import RailBus.FileTree
import Mathlib.Tactic.Common

/-!
# Files

What is written to a path is read back from it: no place that a path leads through is lost by the
writing, and the place it leads to is new or is replaced.
-/

namespace RailBus

section Results

variable {ε ε' α β : Type} {x : Except ε α} {a : α} {b : β}

theorem bind_eq_ok {f : α → Except ε β} : (x >>= f) = .ok b ↔ ∃ a, x = .ok a ∧ f a = .ok b := by
  cases x <;> simp [bind, Except.bind]

theorem map_eq_ok {f : α → β} : x.map f = .ok b ↔ ∃ a, x = .ok a ∧ f a = b := by
  cases x <;> simp [Except.map]

theorem mapError_eq_ok {f : ε → ε'} : x.mapError f = .ok a ↔ x = .ok a := by
  cases x <;> simp [Except.mapError]

end Results

/-! ## Paths -/

namespace FileTree

/-- Whatever is found in `t` is found in `t'`, if not with the same contents. -/
structure Extends (t t' : FileTree) : Prop where
  directory : ∀ {p}, t.isDirectory p = true → t'.isDirectory p = true
  holds : ∀ {p}, t.holds p = true → t'.holds p = true

variable {t t' : FileTree} {p q : Place} {bytes : Bytes}

theorem step_eq_ok_iff {part : String} : t.step p part = .ok q ↔ t.isDirectory p = true ∧
    (part = "." ∧ p = q ∨ part = ".." ∧ p.dropLast = q ∨
      (part ≠ "." ∧ part ≠ ".." ∧ part.utf8ByteSize ≤ maxName) ∧ t.holds (p ++ [part]) = true ∧
        p ++ [part] = q) := by
  unfold step
  split_ifs with hdirectory hdot hdots hlong hheld
  all_goals simp_all [Nat.not_le.2]

theorem Extends.step (h : t.Extends t') {part : String} (hstep : t.step p part = .ok q) :
    t'.step p part = .ok q := by
  rw [step_eq_ok_iff] at hstep ⊢
  exact ⟨h.directory hstep.1, hstep.2.imp_right (Or.imp_right fun ⟨hname, hheld, hq⟩ =>
    ⟨hname, h.holds hheld, hq⟩)⟩

theorem Extends.foldlM (h : t.Extends t') {names : List String}
    (hfold : names.foldlM t.step p = .ok q) : names.foldlM t'.step p = .ok q := by
  induction names generalizing p with
  | nil => exact hfold
  | cons part names ih =>
    rw [List.foldlM_cons, bind_eq_ok] at hfold ⊢
    obtain ⟨next, hstep, hfold⟩ := hfold
    exact ⟨next, h.step hstep, ih hfold⟩

/-! ## Writing -/

def put (t : FileTree) (p : Place) (bytes : Bytes) : FileTree :=
  { t with contents := (p, bytes) :: t.contents.filter (·.1 != p) }

theorem exists_mem_put {f : Place} (h : ∃ b, (f, b) ∈ t.contents) :
    ∃ b, (f, b) ∈ (t.put p bytes).contents := by
  obtain ⟨b, hb⟩ := h
  by_cases hf : f = p
  · exact ⟨bytes, by simp [put, hf]⟩
  · exact ⟨b, by simp [put, hf, hb]⟩

theorem lookup_isSome_iff {contents : List (Place × Bytes)} :
    (contents.lookup p).isSome = true ↔ ∃ b, (p, b) ∈ contents := by
  rw [Option.isSome_iff_ne_none, ne_eq, List.lookup_eq_none_iff]
  constructor
  · intro h
    simp only [not_forall, bne_iff_ne, not_not] at h
    obtain ⟨⟨f, b⟩, hmem, rfl⟩ := h
    exact ⟨b, hmem⟩
  · rintro ⟨b, hmem⟩ h
    simpa using h _ hmem

theorem holds_iff : t.holds p = true ↔ t.isDirectory p = true ∨ ∃ b, (p, b) ∈ t.contents := by
  rw [holds, Bool.or_eq_true, lookup_isSome_iff]

theorem isDirectory_iff : t.isDirectory p = true ↔
    (t.directories.any p.isPrefixOf || p.isPrefixOf t.workingDirectory) = true ∨
      ∃ f, p.isPrefixOf f = true ∧ p ≠ f ∧ ∃ b, (f, b) ∈ t.contents := by
  rw [isDirectory, Bool.or_eq_true, List.any_eq_true]
  refine or_congr_right ⟨?_, ?_⟩
  · rintro ⟨⟨f, b⟩, hmem, h⟩
    simp only [Bool.and_eq_true, bne_iff_ne] at h
    exact ⟨f, h.1, h.2, b, hmem⟩
  · rintro ⟨f, hbelow, hne, b, hmem⟩
    exact ⟨(f, b), hmem, by simp [hbelow, hne]⟩

theorem extends_put (t : FileTree) (p : Place) (bytes : Bytes) : t.Extends (t.put p bytes) := by
  have hdirectory : ∀ {q}, t.isDirectory q = true → (t.put p bytes).isDirectory q = true := by
    intro q
    simp only [isDirectory_iff]
    exact Or.imp_right fun ⟨f, hbelow, hne, hf⟩ => ⟨f, hbelow, hne, exists_mem_put hf⟩
  refine ⟨hdirectory, fun {q} => ?_⟩
  simp only [holds_iff]
  exact Or.imp hdirectory exists_mem_put

/-- A writing goes to a name in the directory that the path leads to. -/
theorem exists_of_write {path : String} (h : t.write path bytes = .ok t') :
    ∃ p name, parts path = (parts path).dropLast ++ [name] ∧
      checkPath path = .ok () ∧ (parts path).dropLast.foldlM t.step (t.start path) = .ok p ∧
      t.isDirectory p = true ∧ (name ≠ "." ∧ name ≠ ".." ∧ name.utf8ByteSize ≤ maxName) ∧
      path.endsWith "/" = false ∧ t' = t.put (p ++ [name]) bytes := by
  simp only [write, bind_eq_ok] at h
  obtain ⟨⟨⟩, hcheck, p, hfold, h⟩ := h
  split_ifs at h with hdirectory hname hlong hheld
  cases h
  simp only [not_or, Bool.not_eq_true, Nat.not_lt] at hname hlong
  have hne : parts path ≠ [] := by
    intro hnil
    simp [hnil] at hname
  have hlast : (parts path).getLastD "." = (parts path).getLast hne := by
    rw [List.getLastD_eq_getLast?, List.getLast?_eq_some_getLast hne, Option.getD_some]
  exact ⟨p, (parts path).getLastD ".", by rw [hlast, List.dropLast_concat_getLast], hcheck, hfold,
    by simpa using hdirectory, ⟨hname.1, hname.2.1, hlong⟩, hname.2.2, rfl⟩

theorem read_of_write {path : String} (h : t.write path bytes = .ok t') :
    t'.read path = .ok bytes := by
  obtain ⟨p, name, hparts, hcheck, hfold, hdirectory, hname, hends, rfl⟩ := exists_of_write h
  have hextends := t.extends_put (p ++ [name]) bytes
  have hheld : (t.put (p ++ [name]) bytes).holds (p ++ [name]) = true :=
    holds_iff.2 (.inr ⟨bytes, by simp [put]⟩)
  have hlast : (t.put (p ++ [name]) bytes).step p name = .ok (p ++ [name]) :=
    step_eq_ok_iff.2 ⟨hextends.directory hdirectory, .inr (.inr ⟨hname, hheld, rfl⟩)⟩
  have hfollow : (t.put (p ++ [name]) bytes).follow path = .ok (p ++ [name]) := by
    rw [follow, hcheck, hends, hparts]
    have hstart : (t.put (p ++ [name]) bytes).start path = t.start path := rfl
    simp [List.foldlM_append, hstart, hextends.foldlM hfold, hlast, bind, Except.bind, pure,
      Except.pure]
  rw [read, hfollow]
  simp [put, bind, Except.bind]

end FileTree

/-! ## Texts as contents -/

theorem toList_loop (bs : ByteArray) (i : Nat) (r : Bytes) :
    ByteArray.toList.loop bs i r = r.reverse ++ bs.data.toList.drop i := by
  induction i, r using ByteArray.toList.loop.induct bs with
  | case1 i r h ih =>
    have hi : i < bs.data.toList.length := by simpa using h
    rw [ByteArray.toList.loop, if_pos h, ih, List.drop_eq_getElem_cons hi]
    simp [ByteArray.get!, getElem!_pos bs.data i h]
  | case2 i r h =>
    have hi : bs.data.toList.length ≤ i := by simpa using h
    rw [ByteArray.toList.loop, if_neg h]
    simp [List.drop_eq_nil_of_le hi]

theorem fromUTF8?_toUTF8 (s : String) : String.fromUTF8? ⟨s.toUTF8.toList.toArray⟩ = some s := by
  have hbytes : (⟨s.toUTF8.toList.toArray⟩ : ByteArray) = s.toUTF8 := by
    rw [ByteArray.toList, toList_loop]
    simp
  rw [hbytes, String.fromUTF8?]
  exact dif_pos s.isValidUTF8

end RailBus
