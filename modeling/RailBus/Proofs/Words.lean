import RailBus.Yaml.Scalar
import RailBus.Proofs.Spelling
import Mathlib.Tactic.Common

/-!
# Words

Texts that need no quotes, and how the reader of plain scalars goes over them: a word ends at the
colon behind it, or at the end of its line.
-/

namespace RailBus.Yaml

/-! ## Characters -/

/-- The characters that mean nothing but themselves, wherever they stand. -/
def isPlainChar (c : Char) : Bool :=
  c.isDigit || ('A' ≤ c && c ≤ 'Z') || ('a' ≤ c && c ≤ 'z') || c == '_'

structure Plain (text : String) : Prop where
  nonempty : text.toList ≠ []
  chars : ∀ c ∈ text.toList, isPlainChar c = true

/-- Nothing is passed over here: no white space, no comment and no byte order mark. -/
def Settled (cs : List Char) : Prop :=
  ∀ c ∈ cs.head?, isGap c = false ∧ c ≠ '#' ∧ c ≠ byteOrderMark

/-- Characters of one byte that do not end a line. -/
def Inline (cs : List Char) : Prop := ∀ c ∈ cs, isBreak c = false ∧ c.utf8Size = 1

section Chars

variable {c : Char}

theorem ne_of_isPlainChar {d : Char} (h : isPlainChar c = true) (hd : isPlainChar d = false) :
    c ≠ d := by
  rintro rfl
  simp [h] at hd

theorem forall_ne_of_isPlainChar (ds : List Char) (h : isPlainChar c = true)
    (hds : ds.any isPlainChar = false) : ∀ d ∈ ds, c ≠ d :=
  fun d hd => ne_of_isPlainChar h (by simpa using List.any_eq_false.1 hds d hd)

theorem isVisible_of_isPlainChar (h : isPlainChar c = true) : Text.isVisible c = true := by
  simp only [isPlainChar, Char.isDigit, Bool.or_eq_true, Bool.and_eq_true, decide_eq_true_eq,
    beq_iff_eq, ge_iff_le, Char.le_def, UInt32.le_iff_toNat_le] at h
  simp only [Text.isVisible, Bool.and_eq_true, decide_eq_true_eq]
  have : c.toNat = c.val.toNat := rfl
  have : 'A'.val.toNat = 65 ∧ 'Z'.val.toNat = 90 := ⟨rfl, rfl⟩
  have : 'a'.val.toNat = 97 ∧ 'z'.val.toNat = 122 := ⟨rfl, rfl⟩
  have : '0'.val.toNat = 48 ∧ '9'.val.toNat = 57 := ⟨rfl, rfl⟩
  rcases h with h | rfl
  · omega
  · decide

theorem isGap_of_isPlainChar (h : isPlainChar c = true) : isGap c = false := by
  have hne := forall_ne_of_isPlainChar [' ', '\t', '\n', '\u2028', '\u2029'] h (by decide)
  simp only [List.forall_mem_cons] at hne
  simp [isGap, isSpace, isBreak, hne]

theorem utf8Size_of_isPlainChar (h : isPlainChar c = true) : c.utf8Size = 1 := by
  have hvisible := isVisible_of_isPlainChar h
  simp only [Text.isVisible, Bool.and_eq_true, decide_eq_true_eq] at hvisible
  rw [Char.utf8Size_eq_one_iff, UInt32.le_iff_toNat_le]
  exact Nat.le_trans hvisible.2 (by decide)

theorem isPrintable_of_isPlainChar (h : isPlainChar c = true) : isPrintable c = true := by
  have hvisible := isVisible_of_isPlainChar h
  simp only [Text.isVisible, Bool.and_eq_true, decide_eq_true_eq] at hvisible
  simp only [isPrintable, Bool.or_eq_true, Bool.and_eq_true, decide_eq_true_eq]
  omega

end Chars

namespace Plain

variable {text : String}

theorem inline (h : Plain text) : Inline text.toList := fun c hc =>
  ⟨(Bool.or_eq_false_iff.1 (isGap_of_isPlainChar (h.chars c hc))).2,
    utf8Size_of_isPlainChar (h.chars c hc)⟩

theorem length_pos (h : Plain text) : 0 < text.toList.length := List.length_pos_iff.2 h.nonempty

theorem exists_cons (h : Plain text) :
    ∃ c rest, text.toList = c :: rest ∧ isPlainChar c = true := by
  obtain ⟨c, rest, heq⟩ := List.exists_cons_of_ne_nil h.nonempty
  exact ⟨c, rest, heq, h.chars c (by simp [heq])⟩

theorem settled (h : Plain text) (more : List Char) : Settled (text.toList ++ more) := by
  obtain ⟨c, rest, heq, hc⟩ := h.exists_cons
  intro d hd
  obtain rfl : c = d := by simpa [heq] using hd
  exact ⟨isGap_of_isPlainChar hc, ne_of_isPlainChar hc (by decide),
    ne_of_isPlainChar hc (by decide)⟩

end Plain

theorem settled_nil : Settled [] := fun _ h => nomatch h

theorem inline_spaces (n : Nat) : Inline (List.replicate n ' ') := fun c hc => by
  rw [List.eq_of_mem_replicate hc]
  decide

/-! ## Moving along a line -/

namespace Cursor

variable {cs more : List Char} {line column index : Nat}

theorem skip_inline (h : Inline cs) :
    skip ⟨cs ++ more, line, column, index⟩ cs.length =
      ⟨more, line, column + cs.length, index + cs.length⟩ := by
  induction cs generalizing column index with
  | nil => rfl
  | cons c cs ih =>
    obtain ⟨hbreak, hsize⟩ := h c (by simp)
    have hadvance : advance ⟨c :: cs ++ more, line, column, index⟩ =
        ⟨cs ++ more, line, column + 1, index + 1⟩ := by simp [advance, hbreak, hsize]
    rw [List.length_cons, skip, hadvance, ih fun c hc => h c (List.mem_cons_of_mem _ hc)]
    simp [Nat.add_assoc, Nat.add_comm 1]

theorem skip_spaces (n : Nat) :
    skip ⟨List.replicate n ' ' ++ more, line, column, index⟩ n =
      ⟨more, line, column + n, index + n⟩ := by
  have hskip := @skip_inline _ more line column index (inline_spaces n)
  rwa [List.length_replicate] at hskip

theorem atMarker_of_isPlainChar {c : Cursor} {x : Char} (h : c.peek = some x)
    (hx : isPlainChar x = true) : c.atMarker = false := by
  obtain ⟨rest, line, column, index⟩ := c
  obtain ⟨more, rfl⟩ : ∃ more, rest = x :: more := List.head?_eq_some_iff.1 h
  have hdash := ne_of_isPlainChar hx (d := '-') (by decide)
  have hdot := ne_of_isPlainChar hx (d := '.') (by decide)
  simp [atMarker, startsWith, hdash.symm, hdot.symm]

end Cursor

/-- Passes the indentation behind line breaks, up to what the line begins with. -/
theorem Gap.read?_spaces {more : List Char} (hmore : Settled more) {g : Gap} (hg : g.breaks ≠ [])
    {line column index : Nat} (indent j : Nat) {n : Nat} (hn : j ≤ n) :
    read? indent n g ⟨List.replicate j ' ' ++ more, line, column, index⟩ =
      some (g, ⟨more, line, column + j, index + j⟩) := by
  induction j generalizing n column index with
  | zero =>
    cases n with
    | zero => rfl
    | succ n =>
      cases more with
      | nil => rfl
      | cons x more =>
        obtain ⟨hspace, hbreak⟩ := Bool.or_eq_false_iff.1 (hmore x rfl).1
        simp [read?, Cursor.peek, hspace, hbreak]
  | succ j ih =>
    obtain _ | n := n
    · omega
    · have hspace : isBreak ' ' = false ∧ isSpace ' ' = true ∧ ' '.utf8Size = 1 := by decide
      have hrest := @ih (column + 1) (index + 1) n (by omega)
      simp [read?, Cursor.peek, hspace, hg, Cursor.advance, List.replicate_succ, hrest,
        Nat.add_assoc, Nat.add_comm 1]

/-! ## Plain scalars -/

theorem plainWord?_append {w more : List Char} (h : ∀ c ∈ w, isPlainChar c = true)
    (hmore : plainWord? false more = some []) : plainWord? false (w ++ more) = some w := by
  induction w with
  | nil => exact hmore
  | cons c w ih =>
    have hc := h c (by simp)
    have hcolon : (c == ':') = false := by simpa using ne_of_isPlainChar hc (d := ':') (by decide)
    have hrest := ih fun c hc => h c (List.mem_cons_of_mem _ hc)
    simp [plainWord?, isGap_of_isPlainChar hc, hcolon, hrest]

namespace Plain

variable {text : String} {more : List Char} {indent line column index : Nat}

/-- The first round of the reader takes the whole word. -/
theorem plainFrom?_eq (h : Plain text) (hmore : plainWord? false more = some []) (n : Nat) :
    plainFrom? false indent (n + 1) [] {} ⟨text.toList ++ more, line, column, index⟩ =
      let c : Cursor := ⟨more, line, column + text.toList.length, index + text.toList.length⟩
      if c.peek.any isGap = false then some (text.toList, {}, c)
      else (Gap.read? indent (n + 1) {} c).bind fun (gap, c) =>
        if c.column < indent then some (text.toList, gap, c)
        else plainFrom? false indent n text.toList gap c := by
  obtain ⟨x, rest, heq, hx⟩ := h.exists_cons
  have hpeek : Cursor.peek ⟨text.toList ++ more, line, column, index⟩ = some x := by
    simp [Cursor.peek, heq]
  have hhash : x ≠ '#' := ne_of_isPlainChar hx (by decide)
  rw [plainFrom?]
  simp only [Cursor.atMarker_of_isPlainChar hpeek hx, hpeek, plainWord?_append h.chars hmore]
  simp [hhash, h.nonempty, Gap.folded, Cursor.skip_inline h.inline]

theorem plain?_colon (h : Plain text) (hmore : more.head?.all isGap = true) :
    plain? false indent ⟨text.toList ++ ':' :: more, line, column, index⟩ =
      some (text, false,
        ⟨':' :: more, line, column + text.toList.length, index + text.toList.length⟩) := by
  rw [plain?, h.plainFrom?_eq (by simp [plainWord?, hmore])]
  simp [Cursor.peek, show isGap ':' = false by decide]

/-- The line break behind a word is read with it, and so is the indentation of the next line. What
stands there is not deep enough to continue the scalar. -/
theorem plain?_lineFeed (h : Plain text) (hmore : Settled more) {j : Nat} (hj : j < indent) :
    plain? false indent
        ⟨text.toList ++ '\n' :: (List.replicate j ' ' ++ more), line, column, index⟩ =
      some (text, true, ⟨more, line + 1, j, index + text.toList.length + 1 + j⟩) := by
  have hbreak : isGap '\n' = true ∧ isBreak '\n' = true ∧ '\n'.utf8Size = 1 := by decide
  have hread : ∀ n, j ≤ n → Gap.read? indent (n + 1) {}
      ⟨'\n' :: (List.replicate j ' ' ++ more), line, column + text.toList.length,
        index + text.toList.length⟩ =
      some ({ breaks := ['\n'] }, ⟨more, line + 1, j, index + text.toList.length + 1 + j⟩) := by
    intro n hn
    rw [Gap.read?]
    simp [Cursor.peek, hbreak, Cursor.advance,
      Gap.read?_spaces hmore (g := { breaks := ['\n'] }) (by simp) indent j hn]
  rw [plain?, h.plainFrom?_eq (by simp [plainWord?, hbreak])]
  simp only [Cursor.peek, List.head?_cons, Option.any_some, hbreak]
  rw [hread _ (by simp; omega)]
  simp [hj]

end Plain
end RailBus.Yaml
