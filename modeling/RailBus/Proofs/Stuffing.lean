import RailBus.Stuffing

/-!
# What stuffed bytes look like

Stuffing goes byte by byte, and no stuffed byte is a delimiter. Unstuffing takes one byte or a pair
at a time (`StandsFor`), so what is known of unstuffed bytes goes by induction on these
(`unstuffing_induction`).
-/

namespace RailBus

theorem needsEscape_iff (b : UInt8) : needsEscape b = true ↔ b = magic ∨ b = escapeMark := by
  simp [needsEscape]

theorem escapeMark_ne_magic : escapeMark ≠ magic := by decide

theorem flip_flip (b : UInt8) : b ^^^ escapeFlip ^^^ escapeFlip = b := by
  rw [UInt8.xor_assoc, UInt8.xor_self, UInt8.xor_zero]

/-- A flipped byte is no delimiter, so an `escapeMark` never stands before one. -/
theorem flip_ne_magic {b : UInt8} (h : needsEscape b = true) : b ^^^ escapeFlip ≠ magic := by
  rcases (needsEscape_iff b).1 h with rfl | rfl <;> decide

theorem escape_cons (b : UInt8) (bs : Bytes) : escape (b :: bs) = escape [b] ++ escape bs := by
  by_cases h : needsEscape b = true <;> simp [escape, h]

theorem escape_append (bs bs' : Bytes) : escape (bs ++ bs') = escape bs ++ escape bs' := by
  induction bs with
  | nil => rfl
  | cons b rest ih =>
    rw [List.cons_append, escape_cons, ih, escape_cons b rest, List.append_assoc]

theorem length_escape (bs : Bytes) : (escape bs).length = escapedLength bs := by
  induction bs with
  | nil => rfl
  | cons b rest ih =>
    rw [escape, escapedLength]
    split
    · rw [List.length_cons, List.length_cons, ih]
      omega
    · rw [List.length_cons, ih]
      omega

theorem escapedLength_append (bs bs' : Bytes) :
    escapedLength (bs ++ bs') = escapedLength bs + escapedLength bs' := by
  rw [← length_escape, escape_append, List.length_append, length_escape, length_escape]

theorem length_le_escapedLength (bs : Bytes) : bs.length ≤ escapedLength bs := by
  induction bs with
  | nil => exact Nat.le_refl _
  | cons b rest ih =>
    rw [escapedLength, List.length_cons]
    split <;> omega

theorem magic_notMem_escape (bs : Bytes) : magic ∉ escape bs := by
  induction bs with
  | nil => simp [escape]
  | cons b rest ih =>
    intro hmem
    by_cases h : needsEscape b = true
    · rw [escape, if_pos h, List.mem_cons, List.mem_cons] at hmem
      rcases hmem with hmark | hflip | hrest
      · exact escapeMark_ne_magic hmark.symm
      · exact flip_ne_magic h hflip.symm
      · exact ih hrest
    · rw [escape, if_neg h, List.mem_cons] at hmem
      rcases hmem with hb | hrest
      · exact h ((needsEscape_iff b).2 (.inl hb.symm))
      · exact ih hrest

/-! ## Unstuffing -/

/-- The bytes are read as the one byte `b`. They need not be what `b` is stuffed to. -/
inductive StandsFor : Bytes → UInt8 → Prop
  | plain {b : UInt8} : b ≠ escapeMark → StandsFor [b] b
  | pair {c : UInt8} : c ≠ magic → StandsFor [escapeMark, c] (c ^^^ escapeFlip)

theorem standsFor_escape (b : UInt8) : StandsFor (escape [b]) b := by
  by_cases h : needsEscape b = true
  · have hpair := StandsFor.pair (flip_ne_magic h)
    rw [flip_flip] at hpair
    simpa [escape, h] using hpair
  · have hmark : b ≠ escapeMark := fun hb => h ((needsEscape_iff b).2 (.inr hb))
    simpa [escape, h] using StandsFor.plain hmark

@[simp] theorem unescape_nil : unescape [] = .ok [] := by rw [unescape]

@[simp] theorem unescape_lone : unescape [escapeMark] = .error .badEscape := by simp [unescape]

theorem unescape_damaged (rest : Bytes) :
    unescape (escapeMark :: magic :: rest) = .error .badEscape := by simp [unescape]

theorem StandsFor.unescape_append {stuffed : Bytes} {b : UInt8} (h : StandsFor stuffed b)
    (rest : Bytes) : unescape (stuffed ++ rest) = (unescape rest).map (b :: ·) := by
  cases h with
  | plain hmark => rw [List.singleton_append, unescape.eq_def]; simp [hmark]
  | pair hmagic => rw [List.cons_append, List.singleton_append, unescape.eq_def]; simp [hmagic]

/-- Bytes are read one after the other until none is left or they are found damaged. -/
theorem unstuffing_induction {P : Bytes → Prop} (nil : P []) (lone : P [escapeMark])
    (damaged : ∀ rest, P (escapeMark :: magic :: rest))
    (append : ∀ stuffed b rest, StandsFor stuffed b → P rest → P (stuffed ++ rest))
    (bs : Bytes) : P bs := by
  induction bs using unescape.induct with
  | case1 => exact nil
  | case2 => exact lone
  | case3 rest => exact damaged rest
  | case4 c rest hc ih => exact append _ _ rest (.pair hc) ih
  | case5 b rest hb ih => exact append _ _ rest (.plain hb) ih

theorem unescape_append {front body : Bytes} (h : unescape front = .ok body) (rest : Bytes) :
    unescape (front ++ rest) = (unescape rest).map (body ++ ·) := by
  induction front using unstuffing_induction generalizing body with
  | nil =>
    rw [unescape_nil] at h
    cases h
    cases hrest : unescape rest <;> simp [hrest, Except.map]
  | lone => simp at h
  | damaged tail => simp [unescape_damaged] at h
  | append stuffed b tail hs ih =>
    rw [hs.unescape_append] at h
    cases htail : unescape tail with
    | error e => simp [htail, Except.map] at h
    | ok more =>
      rw [htail] at h
      cases h
      rw [List.append_assoc, hs.unescape_append, ih htail]
      cases unescape rest <;> rfl

theorem ne_nil_of_unescape {bs body : Bytes} (h : unescape bs = .ok body) (hne : bs ≠ []) :
    body ≠ [] := by
  rintro rfl
  cases bs using unstuffing_induction with
  | nil => exact hne rfl
  | lone => simp at h
  | damaged rest => simp [unescape_damaged] at h
  | append stuffed b rest hs _ =>
    rw [hs.unescape_append] at h
    cases hrest : unescape rest <;> simp [hrest, Except.map] at h

/-- Where there is no delimiter, only an `escapeMark` at the end is damage. -/
theorem unescape_eq_error_iff {bs : Bytes} (h : magic ∉ bs) :
    (∃ e, unescape bs = .error e) ↔
      ∃ front body, bs = front ++ [escapeMark] ∧ unescape front = .ok body := by
  constructor
  · rintro ⟨e, he⟩
    induction bs using unstuffing_induction with
    | nil => simp at he
    | lone => exact ⟨[], [], rfl, unescape_nil⟩
    | damaged rest => simp at h
    | append stuffed b rest hs ih =>
      rw [hs.unescape_append] at he
      cases hrest : unescape rest with
      | ok body => simp [hrest, Except.map] at he
      | error e' =>
        rw [hrest] at he
        cases he
        have hmagic : magic ∉ rest := fun hmem => h (List.mem_append_right _ hmem)
        obtain ⟨front, body, rfl, hfront⟩ := ih hmagic hrest
        refine ⟨stuffed ++ front, b :: body, by rw [List.append_assoc], ?_⟩
        rw [hs.unescape_append, hfront]
        rfl
  · rintro ⟨front, body, rfl, hfront⟩
    rw [unescape_append hfront, unescape_lone]
    exact ⟨_, rfl⟩

end RailBus
