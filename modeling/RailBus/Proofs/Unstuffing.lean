import RailBus.Proofs.Stuffing

/-!
# What unstuffing takes, and what it undoes

Unstuffing reads an `escapeMark` together with the byte behind it (`pieces`). It asks less of the
bytes than stuffing keeps to: only an `escapeMark` that is the last byte, or stands before a
delimiter, is damage, and any other byte behind it is flipped. So what was stuffed is always read
back, while what is read is stuffed to the same bytes again only if every piece is one that stuffing
writes (`stuffing_transparent`).
-/

namespace RailBus

/-- The bytes from the left, each `escapeMark` together with the byte behind it if there is one. -/
def pieces : Bytes → List Bytes
  | [] => []
  | [b] => [[b]]
  | b :: c :: rest => if b = escapeMark then [b, c] :: pieces rest else [b] :: pieces (c :: rest)

variable {stuffed rest bs body : Bytes} {b : UInt8} {e : WireError}

theorem pieces_pair (c : UInt8) (rest : Bytes) :
    pieces (escapeMark :: c :: rest) = [escapeMark, c] :: pieces rest := by
  rw [pieces, if_pos rfl]

/-- What stands for one byte is one piece. -/
theorem StandsFor.pieces_append (h : StandsFor stuffed b) (rest : Bytes) :
    pieces (stuffed ++ rest) = stuffed :: pieces rest := by
  cases h with
  | plain hmark =>
    cases rest with
    | nil => rfl
    | cons c rest => rw [List.singleton_append, pieces, if_neg hmark]
  | pair _ => exact pieces_pair _ rest

/-! ## Damage -/

theorem StandsFor.ne_lone (h : StandsFor stuffed b) : stuffed ≠ [escapeMark] := by
  cases h with
  | plain hmark => simpa using hmark
  | pair _ => simp

theorem StandsFor.ne_damaged (h : StandsFor stuffed b) : stuffed ≠ [escapeMark, magic] := by
  cases h with
  | plain _ => simp
  | pair hmagic => simpa using hmagic

/-- Bytes are found damaged for a piece that stands for nothing, and for no other reason. -/
theorem unescape_error_iff :
    unescape bs = .error e ↔
      e = .badEscape ∧ ([escapeMark] ∈ pieces bs ∨ [escapeMark, magic] ∈ pieces bs) := by
  induction bs using unstuffing_induction with
  | nil => simp [pieces]
  | lone => simp [pieces, eq_comm]
  | damaged rest => simp [unescape_damaged, pieces_pair, eq_comm]
  | append stuffed b rest hs ih =>
    rw [hs.unescape_append, hs.pieces_append]
    simp only [List.mem_cons, hs.ne_lone.symm, hs.ne_damaged.symm, false_or, ← ih]
    cases unescape rest <;> simp [Except.map]

/-! ## Stuffing undone, and done again -/

theorem unescape_escape (bs : Bytes) : unescape (escape bs) = .ok bs := by
  induction bs with
  | nil => exact unescape_nil
  | cons b rest ih =>
    rw [escape_cons, (standsFor_escape b).unescape_append, ih]
    rfl

/-- The two bytes behind an `escapeMark` that stuffing writes. -/
theorem needsEscape_flip_iff (c : UInt8) :
    needsEscape (c ^^^ escapeFlip) = true ↔ c = 0xDE ∨ c = 0xDD := by
  have hflip : ∀ d : UInt8, c ^^^ escapeFlip = d ↔ c = d ^^^ escapeFlip := by
    intro d
    constructor
    · rintro rfl
      exact (flip_flip c).symm
    · rintro rfl
      exact flip_flip d
  rw [needsEscape_iff, hflip, hflip]
  exact Iff.rfl

/-- A piece is what stuffing writes for its byte if it is no delimiter and, where it is a pair, has
one of the two bytes that stuffing puts there. -/
theorem StandsFor.escape_eq_iff (h : StandsFor stuffed b) :
    escape [b] = stuffed ↔
      magic ∉ stuffed ∧ ∀ c, stuffed = [escapeMark, c] → c = 0xDE ∨ c = 0xDD := by
  cases h with
  | plain hmark =>
    by_cases hmagic : b = magic
    · subst hmagic
      simp [escape, needsEscape]
    · have hneeds : ¬ needsEscape b = true := by
        rw [needsEscape_iff]
        exact not_or.2 ⟨hmagic, hmark⟩
      simp [escape, hneeds, Ne.symm hmagic]
  | @pair c hmagic =>
    have hnotMem : magic ∉ [escapeMark, c] := by
      simp [Ne.symm hmagic, escapeMark_ne_magic.symm]
    rw [and_iff_right hnotMem, escape]
    split
    case isTrue hneeds =>
      have hc := (needsEscape_flip_iff c).1 hneeds
      rw [flip_flip]
      simp [escape, hc]
    case isFalse hneeds =>
      rw [needsEscape_flip_iff] at hneeds
      simp [escape, hneeds]

/-- What is written for a byte starts like what was read for it only if it is the same. -/
theorem StandsFor.append_eq_iff (h : StandsFor stuffed b) (more rest : Bytes) :
    escape [b] ++ more = stuffed ++ rest ↔ escape [b] = stuffed ∧ more = rest := by
  by_cases hneeds : needsEscape b = true
  · have hescape : escape [b] = [escapeMark, b ^^^ escapeFlip] := by simp [escape, hneeds]
    rw [hescape]
    cases h with
    | plain hmark => simp [hmark.symm]
    | pair _ => simp
  · have hescape : escape [b] = [b] := by simp [escape, hneeds]
    rw [hescape]
    cases h with
    | plain _ => simp
    | pair _ =>
      rw [needsEscape_iff, not_or] at hneeds
      simp [hneeds.2]

/-- Stuffing writes the bytes as they were read if every piece is one that it writes. -/
theorem escape_eq_iff (h : unescape bs = .ok body) :
    escape body = bs ↔
      magic ∉ bs ∧ ∀ c, [escapeMark, c] ∈ pieces bs → c = 0xDE ∨ c = 0xDD := by
  induction bs using unstuffing_induction generalizing body with
  | nil =>
    rw [unescape_nil] at h
    cases h
    simp [escape, pieces]
  | lone => simp at h
  | damaged rest => simp [unescape_damaged] at h
  | append stuffed b rest hs ih =>
    rw [hs.unescape_append] at h
    cases hrest : unescape rest with
    | error e => simp [hrest, Except.map] at h
    | ok more =>
      rw [hrest] at h
      cases h
      rw [escape_cons, hs.append_eq_iff, hs.escape_eq_iff, ih hrest, hs.pieces_append,
        List.mem_append, not_or, and_and_and_comm]
      simp only [List.mem_cons, or_imp, forall_and, eq_comm]

/-- **Stuffing is transparent and marks its own bytes.** Stuffed bytes hold no delimiter, are as
many as was reckoned, are stuffed piece by piece, and are always read back as they were. Other bytes
are damaged if, read from the left with each `escapeMark` taken together with the byte behind it, one
of the marks is the last byte or has a delimiter behind it; and bytes that are not damaged are what
their own reading is stuffed to if they hold no delimiter and no pair but the two that stuffing
writes. -/
theorem stuffing_transparent (x y z : Bytes) :
    (magic ∉ escape x ∧ (escape x).length = escapedLength x ∧
      escape (x ++ y) = escape x ++ escape y ∧ unescape (escape x) = .ok x) ∧
      (∀ e, unescape z = .error e ↔
        e = .badEscape ∧ ([escapeMark] ∈ pieces z ∨ [escapeMark, magic] ∈ pieces z)) ∧
      ∀ body, unescape z = .ok body →
        (escape body = z ↔
          magic ∉ z ∧ ∀ c, [escapeMark, c] ∈ pieces z → c = 0xDE ∨ c = 0xDD) :=
  ⟨⟨magic_notMem_escape x, length_escape x, escape_append x y, unescape_escape x⟩,
    fun _ => unescape_error_iff, fun _ => escape_eq_iff⟩

/-- An `escapeMark` may be the second byte of a pair, and is then not the first of another. Such a
pair is read and never written. -/
theorem marked_mark_read :
    unescape [0xFD, 0xFD, 0xDE] = .ok [0xDD, 0xDE] ∧ escape [0xDD, 0xDE] ≠ [0xFD, 0xFD, 0xDE] ∧
      unescape [0xFD, 0xDE, 0xFD, 0xDD] = .ok [0xFE, 0xFD] ∧
      escape [0xFE, 0xFD] = [0xFD, 0xDE, 0xFD, 0xDD] := by
  have hmark : unescape [0xFD, 0xFD, 0xDE] = .ok [0xDD, 0xDE] := rfl
  have hpairs : unescape [0xFD, 0xDE, 0xFD, 0xDD] = .ok [0xFE, 0xFD] := rfl
  have hwritten := (stuffing_transparent [] [] [0xFD, 0xFD, 0xDE]).2.2 _ hmark
  refine ⟨hmark, fun h => ?_, hpairs, ?_⟩
  · exact absurd ((hwritten.1 h).2 0xFD (by decide)) (by decide)
  · refine ((stuffing_transparent [] [] [0xFD, 0xDE, 0xFD, 0xDD]).2.2 _ hpairs).2 ⟨by decide, ?_⟩
    intro c hc
    have hpieces : pieces [0xFD, 0xDE, 0xFD, 0xDD] = [[0xFD, 0xDE], [0xFD, 0xDD]] := rfl
    simp only [hpieces, List.mem_cons, List.cons.injEq, List.not_mem_nil, or_false, and_true] at hc
    exact hc.imp And.right And.right

end RailBus
