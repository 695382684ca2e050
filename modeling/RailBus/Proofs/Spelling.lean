import RailBus.Address.Text
import RailBus.MessageType
import RailBus.Text.Hex
import RailBus.Proofs.Address
import Mathlib.Data.List.TakeWhile

/-!
# Written and read back

Numbers, addresses, message types and bytes are written in one way each and may be read in several.
What was written is always read back as what it was, by itself or with white space around it.
-/

namespace RailBus

namespace Text

/-! ## Numerals -/

theorem digit?_digitChar : ∀ radix ≤ 16, ∀ n < radix, digit? radix n.digitChar = some n := by
  decide +kernel

theorem digits?_append (radix acc : Nat) (cs ds : List Char) :
    digits? radix acc (cs ++ ds) = (digits? radix acc cs).bind fun n => digits? radix n ds := by
  induction cs generalizing acc with
  | nil => rfl
  | cons c rest ih =>
    cases hc : digit? radix c <;> simp [digits?, hc, ih]

/-- A number is read back from its digits. -/
theorem digits?_toDigits {radix : Nat} (hlow : 1 < radix) (hhigh : radix ≤ 16) (n : Nat) :
    digits? radix 0 (Nat.toDigits radix n) = some n := by
  induction n using Nat.strong_induction_on with
  | _ n ih =>
    have hlast := digit?_digitChar radix hhigh (n % radix) (Nat.mod_lt _ (by omega))
    rw [Nat.toDigits_eq_if hlow]
    split
    case isTrue h =>
      rw [Nat.mod_eq_of_lt h] at hlast
      simp [digits?, hlast]
    case isFalse h =>
      rw [digits?_append, ih _ (Nat.div_lt_self (by omega) hlow)]
      simp [digits?, hlast, Nat.div_add_mod']

theorem isDigit_toDigits {c : Char} {n : Nat} (h : c ∈ Nat.toDigits 10 n) : c.isDigit = true :=
  Nat.isDigit_of_mem_toDigits (by decide) (by decide) h

/-- A numeral without a sign is its digits. -/
theorem natural?_of_digits {radix bound n : Nat} {cs : List Char} (hne : cs ≠ [])
    (hplus : '+' ∉ cs) (hdigits : digits? radix 0 cs = some n) (hbound : n < bound) :
    natural? radix bound cs = some n := by
  cases cs with
  | nil => exact absurd rfl hne
  | cons c rest =>
    have hc : c ≠ '+' := by
      rintro rfl
      exact hplus (by simp)
    unfold natural?
    split
    case h_1 hsign => exact absurd (List.cons.inj hsign).1 hc
    case h_2 => simp [magnitude?, hdigits, hbound]

theorem natural?_toDigits {n bound : Nat} (h : n < bound) :
    natural? 10 bound (Nat.toDigits 10 n) = some n :=
  natural?_of_digits Nat.toDigits_ne_nil
    (fun hplus => absurd (isDigit_toDigits hplus) (by decide))
    (digits?_toDigits (by decide) (by decide) n) h

theorem byte?_toDigits (b : UInt8) : byte? 10 (Nat.toDigits 10 b.toNat) = some b := by
  rw [byte?, natural?_toDigits b.toNat_lt, Option.map_some, UInt8.ofNat_toNat]

theorem integer?_toDigits {n : Nat} (h : n < Nat.pow 2 63) :
    integer? (Nat.toDigits 10 n) = some (n : Int) := by
  have hnatural := natural?_toDigits h
  cases hcs : Nat.toDigits 10 n with
  | nil => exact absurd hcs Nat.toDigits_ne_nil
  | cons c rest =>
    have hc : c.isDigit = true := isDigit_toDigits (n := n) (by simp [hcs])
    unfold integer?
    split
    case h_1 hminus =>
      rw [(List.cons.inj hminus).1] at hc
      exact absurd hc (by decide)
    case h_2 => rw [← hcs, hnatural]; rfl

theorem dash_notMem_decimal (n : Nat) : '-' ∉ (toString n).toList := by
  rw [Nat.toString_eq_repr, Nat.toList_repr]
  exact fun h => absurd (isDigit_toDigits h) (by decide)

theorem integer?_text (b : UInt8) : integer? (toString b.toNat).toList = some (b.toNat : Int) := by
  have hbound : b.toNat < Nat.pow 2 63 := Nat.lt_trans b.toNat_lt (by decide)
  rw [Nat.toString_eq_repr, Nat.toList_repr, integer?_toDigits hbound]

/-! ## White space -/

/-- A printable character of ASCII that is no white space. -/
def isVisible (c : Char) : Bool := 0x21 ≤ c.toNat && c.toNat ≤ 0x7E

theorem isBlank_of_isVisible {c : Char} (h : isVisible c = true) : isBlank c = false := by
  simp only [isVisible, Bool.and_eq_true, decide_eq_true_eq] at h
  simp [isBlank, blankRanges]
  omega

theorem isVisible_of_isDigit {c : Char} (h : c.isDigit = true) : isVisible c = true := by
  simp only [Char.isDigit, Bool.and_eq_true, decide_eq_true_eq, ge_iff_le,
    UInt32.le_iff_toNat_le] at h
  simp only [isVisible, Bool.and_eq_true, decide_eq_true_eq]
  exact ⟨Nat.le_trans (by decide) h.1, Nat.le_trans h.2 (by decide)⟩

theorem dropWhile_unblank {cs : List Char} (h : ∀ c ∈ cs.head?, isBlank c = false) :
    cs.dropWhile isBlank = cs := by
  cases cs with
  | nil => rfl
  | cons c rest => simp [h c (by simp)]

theorem isBlank_of_mem_head?_dropWhile {cs : List Char} {c : Char}
    (h : c ∈ (cs.dropWhile isBlank).head?) : isBlank c = false := by
  have hhead := List.head?_dropWhile_not isBlank cs
  rw [Option.mem_def] at h
  rwa [h] at hhead

/-- `body` is what remains of a text without the white space at its ends. Inside `body` there may be
white space. -/
structure Trims (cs body : List Char) : Prop where
  around : ∃ before after, (∀ c ∈ before, isBlank c = true) ∧ (∀ c ∈ after, isBlank c = true) ∧
    cs = before ++ body ++ after
  first : ∀ c ∈ body.head?, isBlank c = false
  last : ∀ c ∈ body.getLast?, isBlank c = false

theorem Trims.trim_eq {cs body : List Char} (h : Trims cs body) : trim cs = body := by
  obtain ⟨before, after, hbefore, hafter, rfl⟩ := h.around
  rw [trim, List.append_assoc, List.dropWhile_append_of_pos hbefore]
  by_cases hne : body = []
  · have hblank : after.dropWhile isBlank = [] := List.dropWhile_eq_nil_iff.2 hafter
    simp [hne, hblank]
  · have hfront : (body ++ after).dropWhile isBlank = body ++ after := by
      refine dropWhile_unblank ?_
      rw [List.head?_append_of_ne_nil _ hne]
      exact h.first
    have hback : body.reverse.dropWhile isBlank = body.reverse := by
      refine dropWhile_unblank ?_
      rw [List.head?_reverse]
      exact h.last
    rw [hfront, List.reverse_append, List.dropWhile_append_of_pos (by simpa using hafter), hback,
      List.reverse_reverse]

theorem trims_trim (cs : List Char) : Trims cs (trim cs) := by
  let kept := cs.dropWhile isBlank
  let blanks := kept.reverse.takeWhile isBlank
  have hkept : kept = trim cs ++ blanks.reverse := by
    rw [trim, ← List.reverse_append, List.takeWhile_append_dropWhile, List.reverse_reverse]
  constructor
  case around =>
    refine ⟨cs.takeWhile isBlank, blanks.reverse, fun c => List.mem_takeWhile_imp, fun c hc => ?_, ?_⟩
    · exact List.mem_takeWhile_imp (List.mem_reverse.1 hc)
    · rw [List.append_assoc, ← hkept, List.takeWhile_append_dropWhile]
  case first =>
    intro c hc
    have hhead : kept.head? = some c := by
      rw [hkept, List.head?_append, Option.mem_def.1 hc, Option.some_or]
    exact isBlank_of_mem_head?_dropWhile hhead
  case last =>
    intro c hc
    rw [trim, List.getLast?_reverse] at hc
    exact isBlank_of_mem_head?_dropWhile hc

/-- Only white space around a text is cut off. -/
theorem trim_eq {before cs after : List Char} (hbefore : ∀ c ∈ before, isBlank c = true)
    (hcs : ∀ c ∈ cs, isBlank c = false) (hafter : ∀ c ∈ after, isBlank c = true) :
    trim (before ++ cs ++ after) = cs :=
  Trims.trim_eq
    { around := ⟨before, after, hbefore, hafter, rfl⟩
      first := fun c hc => hcs c (List.mem_of_mem_head? hc)
      last := fun c hc => hcs c (List.mem_of_mem_getLast? hc) }

theorem trim_of_visible {cs : List Char} (h : ∀ c ∈ cs, isVisible c = true) : trim cs = cs := by
  have htrim : trim ([] ++ cs ++ []) = cs :=
    trim_eq (by simp) (fun c hc => isBlank_of_isVisible (h c hc)) (by simp)
  rwa [List.nil_append, List.append_nil] at htrim

theorem trim_toDigits (n : Nat) : trim (Nat.toDigits 10 n) = Nat.toDigits 10 n :=
  trim_of_visible fun _ hc => isVisible_of_isDigit (isDigit_toDigits hc)

/-! ## Letters -/

/-- Lower case makes a difference to 26 characters only. -/
theorem toLower_cases {p : Char → Char → Prop} (same : ∀ c, p c c)
    (capital : ∀ n < 26, p (Char.ofNat (0x41 + n)) (Char.ofNat (0x41 + n)).toLower) (c : Char) :
    p c c.toLower := by
  by_cases hc : 'A'.val ≤ c.val ∧ c.val ≤ 'Z'.val
  · have hrange : 0x41 ≤ c.toNat ∧ c.toNat ≤ 0x5A := hc
    have hsum : 0x41 + (c.toNat - 0x41) = c.toNat := by omega
    have hcapital := capital (c.toNat - 0x41) (by omega)
    rwa [hsum, Char.ofNat_toNat] at hcapital
  · have hlower : c.toLower = c := dif_neg hc
    rw [hlower]
    exact same c

theorem digit?_toLower (c : Char) : digit? 16 c.toLower = digit? 16 c :=
  toLower_cases (p := fun c d => digit? 16 d = digit? 16 c) (fun _ => rfl) (by decide) c

theorem isVisible_toLower (c : Char) : isVisible c.toLower = isVisible c :=
  toLower_cases (p := fun c d => isVisible d = isVisible c) (fun _ => rfl) (by decide) c

theorem utf8Size_toLower (c : Char) : c.toLower.utf8Size = c.utf8Size :=
  toLower_cases (p := fun c d => d.utf8Size = c.utf8Size) (fun _ => rfl) (by decide) c

/-! ## Parts -/

theorem splitOn_eq (separator : Char) (cs : List Char) :
    splitOn separator cs = cs.splitOn separator := by
  induction cs with
  | nil => rfl
  | cons c rest ih =>
    rw [splitOn, ih, List.splitOn_cons_eq_if_modifyHead]
    cases hrest : rest.splitOn separator with
    | nil => exact absurd hrest (List.splitOn_ne_nil _ _)
    | cons part parts =>
      by_cases hc : c = separator <;> simp [hc]

theorem mem_intercalate {c : Char} {separator : List Char} {parts : List (List Char)}
    (h : c ∈ separator.intercalate parts) : c ∈ separator ∨ ∃ part ∈ parts, c ∈ part := by
  induction parts with
  | nil => simp at h
  | cons part rest ih =>
    cases rest with
    | nil => exact .inr ⟨part, by simp, by simpa using h⟩
    | cons next more =>
      rw [List.intercalate_cons_cons, List.mem_append, List.mem_append] at h
      rcases h with (h | h) | h
      · exact .inr ⟨part, by simp, h⟩
      · exact .inl h
      · obtain h | ⟨part', hpart', hc⟩ := ih h
        · exact .inl h
        · exact .inr ⟨part', List.mem_cons_of_mem _ hpart', hc⟩

end Text

namespace Address

def parts (a : Address) : List (List Char) := a.components.map fun c => Nat.toDigits 10 c.toNat

theorem isDigit_of_mem_parts {a : Address} {part : List Char} (h : part ∈ a.parts) {c : Char}
    (hc : c ∈ part) : c.isDigit = true := by
  obtain ⟨b, -, rfl⟩ := List.mem_map.1 h
  exact Text.isDigit_toDigits hc

theorem of_mem_chars {a : Address} {c : Char} (h : c ∈ a.chars) : c = '.' ∨ c.isDigit = true := by
  unfold chars at h
  split at h
  · rw [List.mem_singleton.1 h]
    exact .inr (by decide)
  · rcases Text.mem_intercalate h with hdot | ⟨part, hpart, hc⟩
    · exact .inl (List.mem_singleton.1 hdot)
    · exact .inr (isDigit_of_mem_parts hpart hc)

theorem isVisible_of_mem_chars {a : Address} {c : Char} (h : c ∈ a.chars) :
    Text.isVisible c = true := by
  rcases of_mem_chars h with rfl | hc
  · decide
  · exact Text.isVisible_of_isDigit hc

theorem dash_notMem_text (a : Address) : '-' ∉ a.text.toList := by
  rw [text, String.toList_ofList]
  intro h
  rcases of_mem_chars h with hdot | hdigit
  · exact absurd hdot (by decide)
  · exact absurd hdigit (by decide)

/-- An address is read back from its text. -/
theorem parse_text (a : Address) : parse a.text = .ok a := by
  rw [parse, text, String.toList_ofList, ofChars,
    Text.trim_of_visible fun c => isVisible_of_mem_chars]
  by_cases hroot : a.isRoot = true
  · have hchars : a.chars = ['0'] := by simp [chars, hroot]
    have ha : a = root := eq_of_components_eq (List.isEmpty_iff.1 hroot)
    rw [hchars, ha]
    rfl
  · have hchars : a.chars = ['.'].intercalate a.parts := by simp [chars, hroot, parts]
    have hnonempty : a.parts ≠ [] := by simpa [parts, isRoot] using hroot
    have hsplit : Text.splitOn '.' a.chars = a.parts := by
      rw [Text.splitOn_eq, hchars, List.splitOn_intercalate '.' ?_ hnonempty]
      intro part hpart hdot
      exact absurd (isDigit_of_mem_parts hpart hdot) (by decide)
    have hread : a.parts.mapM (fun part => Text.byte? 10 (Text.trim part)) = some a.components := by
      rw [parts, List.mapM_map]
      simp only [Function.comp_def, Text.trim_toDigits, Text.byte?_toDigits]
      exact (List.mapM_pure (f := id)).trans (congrArg some a.components.map_id)
    have hne : ¬ (a.chars = [] ∨ a.chars = ['0']) := by
      rintro (h | h)
      · rw [← hsplit, h] at hread
        cases hread
      · rw [← hsplit, h] at hread
        have hzero : (0 : UInt8) ∈ a.components := by
          rw [← Option.some.inj hread]
          decide
        exact a.ne_zero 0 hzero rfl
    rw [if_neg hne, hsplit, hread]
    exact a.ofComponents_components

end Address

namespace Hex

theorem exists_digit_of_mem {b : UInt8} {c : Char} (h : c ∈ byteChars b) :
    ∃ n < 16, c = Nat.digitChar n := by
  have hb := b.toNat_lt
  simp only [byteChars, List.mem_cons, List.not_mem_nil, or_false] at h
  rcases h with rfl | rfl
  · exact ⟨_, by omega, rfl⟩
  · exact ⟨_, by omega, rfl⟩

theorem of_mem_byteChars {b : UInt8} {c : Char} (h : c ∈ byteChars b) :
    Text.isVisible c = true ∧ c.utf8Size = 1 ∧ c.toLower = c := by
  have hdigit : ∀ n < 16, Text.isVisible n.digitChar = true ∧ n.digitChar.utf8Size = 1 ∧
      n.digitChar.toLower = n.digitChar := by
    decide +kernel
  obtain ⟨n, hn, rfl⟩ := exists_digit_of_mem h
  exact hdigit n hn

theorem notMem_byteChars {b : UInt8} {c : Char} (h : ∀ n < 16, c ≠ Nat.digitChar n) :
    c ∉ byteChars b := by
  intro hc
  obtain ⟨n, hn, rfl⟩ := exists_digit_of_mem hc
  exact h n hn rfl

/-- The digits stand for these bytes, in letters of either case. -/
def Spells (cs : List Char) (bs : Bytes) : Prop := cs.map Char.toLower = bs.flatMap byteChars

instance (cs : List Char) (bs : Bytes) : Decidable (Spells cs bs) :=
  inferInstanceAs (Decidable (_ = _))

theorem spells_encode (bs : Bytes) : Spells (encode bs).toList bs := by
  rw [encode, String.toList_ofList, Spells]
  refine (List.map_congr_left fun c hc => ?_).trans (List.map_id _)
  obtain ⟨b, -, hc⟩ := List.mem_flatMap.1 hc
  exact (of_mem_byteChars hc).2.2

variable {cs : List Char} {bs : Bytes}

theorem Spells.mem (h : Spells cs bs) {c : Char} (hc : c ∈ cs) :
    Text.isVisible c = true ∧ c.utf8Size = 1 := by
  have hlower : c.toLower ∈ bs.flatMap byteChars := by
    rw [← h]
    exact List.mem_map_of_mem hc
  obtain ⟨b, -, hb⟩ := List.mem_flatMap.1 hlower
  obtain ⟨hvisible, hsize, -⟩ := of_mem_byteChars hb
  rw [Text.isVisible_toLower] at hvisible
  rw [Text.utf8Size_toLower] at hsize
  exact ⟨hvisible, hsize⟩

theorem Spells.decodeFrom (h : Spells cs bs) (position : Nat) :
    decodeFrom position cs = .ok bs := by
  induction bs generalizing cs position with
  | nil =>
    rw [List.map_eq_nil_iff.1 h]
    rfl
  | cons b rest ih =>
    obtain ⟨c, cs', rfl, hc, hcs'⟩ := List.map_eq_cons_iff.1 h
    obtain ⟨d, more, rfl, hd, hmore⟩ := List.map_eq_cons_iff.1 hcs'
    have hb := b.toNat_lt
    have hhigh : Text.digit? 16 c = some (b.toNat / 16) := by
      rw [← Text.digit?_toLower, hc]
      exact Text.digit?_digitChar 16 (Nat.le_refl _) _ (by omega)
    have hlow : Text.digit? 16 d = some (b.toNat % 16) := by
      rw [← Text.digit?_toLower, hd]
      exact Text.digit?_digitChar 16 (Nat.le_refl _) _ (by omega)
    have hbyte : UInt8.ofNat (16 * (b.toNat / 16) + b.toNat % 16) = b := by
      rw [Nat.div_add_mod, UInt8.ofNat_toNat]
    rw [Hex.decodeFrom, hhigh, hlow]
    simp only [ih hmore, Except.map, hbyte]

theorem length_flatMap_byteChars (bs : Bytes) : (bs.flatMap byteChars).length = 2 * bs.length := by
  induction bs with
  | nil => rfl
  | cons b rest ih =>
    rw [List.flatMap_cons, List.length_append, ih, List.length_cons]
    show 2 + 2 * rest.length = 2 * (rest.length + 1)
    omega

theorem foldr_utf8Size {cs : List Char} (h : ∀ c ∈ cs, c.utf8Size = 1) :
    cs.foldr (·.utf8Size + ·) 0 = cs.length := by
  induction cs with
  | nil => rfl
  | cons c rest ih =>
    rw [List.foldr_cons, h c (by simp), ih fun c hc => h c (List.mem_cons_of_mem _ hc),
      List.length_cons, Nat.add_comm]

/-- Bytes are read back from their digits, whatever the case of the letters. -/
theorem Spells.decodeChars (h : Spells cs bs) : decodeChars cs = .ok bs := by
  have hlength := congrArg List.length h
  rw [List.length_map, length_flatMap_byteChars] at hlength
  rw [Hex.decodeChars, foldr_utf8Size fun c hc => (h.mem hc).2, hlength, if_neg (by omega)]
  exact h.decodeFrom 0

end Hex

/-- A byte as a code is two digits behind `0x`. -/
theorem hexByte_eq (b : UInt8) : hexByte b = String.ofList ('0' :: 'x' :: Hex.byteChars b) := by
  have hdigit : ∀ n < 16, "0123456789abcdef".toList.getD n '0' = Nat.digitChar n := by
    decide
  have hb := b.toNat_lt
  simp only [hexByte, Hex.byteChars, hdigit _ (show b.toNat / 16 < 16 by omega),
    hdigit _ (show b.toNat % 16 < 16 by omega)]

theorem of_mem_hexByte {b : UInt8} {c : Char} (h : c ∈ (hexByte b).toList) :
    c = 'x' ∨ ∃ n < 16, c = Nat.digitChar n := by
  rw [hexByte_eq, String.toList_ofList] at h
  rcases List.mem_cons.1 h with rfl | h
  · exact .inr ⟨0, by decide, rfl⟩
  · rcases List.mem_cons.1 h with rfl | h
    · exact .inl rfl
    · exact .inr (Hex.exists_digit_of_mem h)

theorem isVisible_of_mem_hexByte {b : UInt8} {c : Char} (h : c ∈ (hexByte b).toList) :
    Text.isVisible c = true := by
  have hdigit : ∀ n < 16, Text.isVisible n.digitChar = true := by decide
  rcases of_mem_hexByte h with rfl | ⟨n, hn, rfl⟩
  · decide
  · exact hdigit n hn

namespace MessageType

/-- What holds of the names, and of the codes in hexadecimal, holds of what types are written as. -/
theorem text_cases {p : MessageType → String → Prop} (named : ∀ entry ∈ names, p ⟨entry.1⟩ entry.2)
    (unnamed : ∀ b, p ⟨b⟩ (hexByte b)) (t : MessageType) : p t t.text := by
  cases hname : t.name? with
  | none =>
    have htext : t.text = hexByte t.code := by rw [text, hname, Option.getD_none]
    rw [htext]
    exact unnamed t.code
  | some name =>
    obtain ⟨before, after, hnames, -⟩ := List.lookup_eq_some_iff.1 hname
    have htext : t.text = name := by rw [text, hname, Option.getD_some]
    rw [htext]
    exact named (t.code, name) (by rw [hnames]; simp)

theorem parse?_hexByte (b : UInt8) : parse? (hexByte b) = some ⟨b⟩ := by
  have hbyte : Text.byte? 16 (Hex.byteChars b) = some b := by
    have hb := b.toNat_lt
    have hdigits : Text.digits? 16 0 (Hex.byteChars b) = some b.toNat := by
      have hhigh := Text.digit?_digitChar 16 (Nat.le_refl _) (b.toNat / 16) (by omega)
      have hlow := Text.digit?_digitChar 16 (Nat.le_refl _) (b.toNat % 16) (by omega)
      simp [Hex.byteChars, Text.digits?, hhigh, hlow, Nat.div_add_mod']
    have hplus : '+' ∉ Hex.byteChars b := Hex.notMem_byteChars (by decide)
    rw [Text.byte?, Text.natural?_of_digits (by simp [Hex.byteChars]) hplus hdigits b.toNat_lt,
      Option.map_some, UInt8.ofNat_toNat]
  have htrim : Text.trim (hexByte b).toList = '0' :: 'x' :: Hex.byteChars b := by
    rw [Text.trim_of_visible fun c => isVisible_of_mem_hexByte, hexByte_eq, String.toList_ofList]
  simp only [parse?, htrim, hbyte]
  rfl

/-- A type is read back from its name, or from its code where it has none. -/
theorem parse?_text (t : MessageType) : parse? t.text = some t :=
  text_cases (p := fun t text => parse? text = some t) (by decide +kernel) parse?_hexByte t

theorem dash_notMem_text (t : MessageType) : '-' ∉ t.text.toList := by
  refine text_cases (p := fun _ text => '-' ∉ text.toList) (by decide +kernel) (fun b h => ?_) t
  have hdigit : ∀ n < 16, '-' ≠ Nat.digitChar n := by decide
  rcases of_mem_hexByte h with hdash | ⟨n, hn, hdash⟩
  · exact absurd hdash (by decide)
  · exact hdigit n hn hdash

end MessageType

end RailBus
