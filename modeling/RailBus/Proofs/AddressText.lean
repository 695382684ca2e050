import RailBus.Json
import RailBus.Proofs.Spelling
import Mathlib.Data.List.Forall2

/-!
# Addresses from text

The texts an address is read from, and the texts that are refused, each described by how they are
made up. Every text is of one kind or the other (`spells_or_refused`), so reading goes by this
description (`parsed_as_spelled`).
-/

namespace RailBus

namespace Text

/-! ## Decimal numerals -/

theorem digit?_eq_some_iff {c : Char} {d : Nat} :
    digit? 10 c = some d ↔ c.isDigit = true ∧ c.toNat - '0'.toNat = d := by
  have hdigit : '0' ≤ c ∧ c ≤ '9' ↔ c.isDigit = true := by
    simp only [Char.isDigit, Bool.and_eq_true, decide_eq_true_eq, ge_iff_le]
    exact Iff.rfl
  have hsmall : c.isDigit = true → c.toNat - '0'.toNat < 10 := by
    rw [Char.isDigit_iff_toNat]
    intro h
    have hnine : '9'.toNat = '0'.toNat + 9 := rfl
    omega
  simp only [digit?, hdigit, Option.filter_eq_some_iff, decide_eq_true_eq]
  by_cases hc : c.isDigit = true
  · simp only [hc, if_true, Option.some.injEq, true_and, and_iff_left_iff_imp]
    rintro rfl
    exact hsmall hc
  · -- a letter stands for ten at least
    simp only [hc, Bool.false_eq_true, if_false, false_and, iff_false, not_and]
    split
    case isTrue => rintro ⟨⟩; omega
    case isFalse =>
      split
      case isTrue => rintro ⟨⟩; omega
      case isFalse => rintro ⟨⟩

theorem digits?_eq_some_iff {acc n : Nat} {cs : List Char} :
    digits? 10 acc cs = some n ↔
      (∀ c ∈ cs, c.isDigit = true) ∧ Nat.ofDigitChars 10 cs acc = n := by
  induction cs generalizing acc with
  | nil => simp [digits?]
  | cons c rest ih =>
    simp only [digits?, Option.bind_eq_some_iff, digit?_eq_some_iff, ih, List.forall_mem_cons,
      Nat.ofDigitChars_cons]
    constructor
    · rintro ⟨d, ⟨hc, rfl⟩, hrest, hn⟩
      exact ⟨⟨hc, hrest⟩, by rwa [Nat.mul_comm]⟩
    · rintro ⟨⟨hc, hrest⟩, hn⟩
      exact ⟨_, ⟨hc, rfl⟩, hrest, by rwa [Nat.mul_comm]⟩

/-- One or more decimal digits, a plus before them perhaps, that make `n`. -/
def Numeral (cs : List Char) (n : Nat) : Prop :=
  ∃ digits, (cs = digits ∨ cs = '+' :: digits) ∧ digits ≠ [] ∧
    (∀ c ∈ digits, c.isDigit = true) ∧ Nat.ofDigitChars 10 digits 0 = n

theorem magnitude?_eq_some_iff {cs : List Char} {n : Nat} :
    magnitude? 10 cs = some n ↔
      cs ≠ [] ∧ (∀ c ∈ cs, c.isDigit = true) ∧ Nat.ofDigitChars 10 cs 0 = n := by
  cases cs with
  | nil => simp [magnitude?]
  | cons c rest => simp [magnitude?, digits?_eq_some_iff]

/-- The plus is no digit, so the digits are what stands behind it. -/
theorem numeral_plus_iff {rest : List Char} {n : Nat} :
    Numeral ('+' :: rest) n ↔ magnitude? 10 rest = some n := by
  simp only [Numeral, ← magnitude?_eq_some_iff]
  constructor
  · rintro ⟨digits, rfl | hcs, hread⟩
    · have hplus := (magnitude?_eq_some_iff.1 hread).2.1 '+' (by simp)
      exact absurd hplus (by decide)
    · rwa [(List.cons.inj hcs).2]
  · exact fun hread => ⟨rest, .inr rfl, hread⟩

theorem numeral_unsigned_iff {cs : List Char} {n : Nat} (hsign : ∀ rest, cs ≠ '+' :: rest) :
    Numeral cs n ↔ magnitude? 10 cs = some n := by
  simp only [Numeral, ← magnitude?_eq_some_iff]
  constructor
  · rintro ⟨digits, rfl | hcs, hread⟩
    · exact hread
    · exact absurd hcs (hsign digits)
  · exact fun hread => ⟨cs, .inl rfl, hread⟩

theorem natural?_eq_some_iff {bound n : Nat} {cs : List Char} :
    natural? 10 bound cs = some n ↔ Numeral cs n ∧ n < bound := by
  unfold natural?
  rw [Option.filter_eq_some_iff, decide_eq_true_eq]
  split
  case h_1 => rw [numeral_plus_iff]
  case h_2 hsign => rw [numeral_unsigned_iff hsign]

theorem byte?_eq_some_iff {cs : List Char} {b : UInt8} :
    byte? 10 cs = some b ↔ Numeral cs b.toNat := by
  simp only [byte?, Option.map_eq_some_iff, natural?_eq_some_iff]
  constructor
  · rintro ⟨n, ⟨hn, hbound⟩, rfl⟩
    rwa [UInt8.toNat_ofNat_of_lt' hbound]
  · intro h
    exact ⟨b.toNat, ⟨h, b.toNat_lt⟩, UInt8.ofNat_toNat⟩

theorem Numeral.mem {cs : List Char} {n : Nat} (h : Numeral cs n) {c : Char} (hc : c ∈ cs) :
    c = '+' ∨ c.isDigit = true := by
  obtain ⟨digits, rfl | rfl, -, hdigits, -⟩ := h
  · exact .inr (hdigits c hc)
  · exact (List.mem_cons.1 hc).imp_right (hdigits c)

/-- Everything is read if each part is. -/
theorem mapM_eq_some_iff {α β : Type} {f : α → Option β} {xs : List α} {ys : List β} :
    xs.mapM f = some ys ↔ List.Forall₂ (fun x y => f x = some y) xs ys := by
  induction xs generalizing ys with
  | nil => simp [eq_comm]
  | cons x rest ih =>
    simp only [List.mapM_cons, Option.bind_eq_bind, Option.bind_eq_some_iff, Option.pure_def,
      Option.some.injEq, List.forall₂_cons_left_iff, ih]
    constructor
    · rintro ⟨y, hy, more, hmore, rfl⟩
      exact ⟨y, more, hy, hmore, rfl⟩
    · rintro ⟨y, more, hy, hmore, rfl⟩
      exact ⟨y, hy, more, hmore, rfl⟩

end Text

namespace Address

open Text (Trims Numeral)

/-! ## What a text stands for -/

/-- A number as it may stand between two dots, with white space around it. -/
def SpellsNumber (part : List Char) (n : Nat) : Prop :=
  ∃ numeral, Trims part numeral ∧ Numeral numeral n

/-- Numbers of a byte each with dots between them. -/
def SpellsRow (body : List Char) (row : Bytes) : Prop :=
  ∃ parts, parts ≠ [] ∧ body = ['.'].intercalate parts ∧
    List.Forall₂ (fun part b => SpellsNumber part b.toNat) parts row

/-- The texts with the components they stand for. -/
inductive Spells (cs : List Char) : Bytes → Prop
  | root {body : List Char} (trims : Trims cs body) (zero : body = [] ∨ body = ['0']) : Spells cs []
  | dotted {parts : List (List Char)} {components : Bytes}
      (trims : Trims cs (['.'].intercalate parts)) (one_le : 1 ≤ parts.length)
      (le_max : parts.length ≤ maxDepth)
      (numbers : List.Forall₂ (fun part b => SpellsNumber part b.toNat) parts components)
      (values : ∀ b ∈ components, 1 ≤ b.toNat ∧ b.toNat ≤ 255) : Spells cs components

/-- The texts that stand for no address, with what is wrong. The depth is looked at before the
zeros, and the interface is not refused for its zero. -/
inductive Refused (cs : List Char) : AddressError → Prop
  | unreadable {body : List Char} (trims : Trims cs body) (ne_nil : body ≠ [])
      (no_row : ¬ ∃ row, SpellsRow body row) : Refused cs (.unreadable (String.ofList body))
  | tooDeep {body : List Char} {row : Bytes} (trims : Trims cs body) (spells : SpellsRow body row)
      (max_lt : maxDepth < row.length) : Refused cs (.tooDeep row.length)
  | zeroComponent {body : List Char} {row : Bytes} (trims : Trims cs body) (ne_zero : body ≠ ['0'])
      (spells : SpellsRow body row) (le_max : row.length ≤ maxDepth) (zero : 0 ∈ row) :
      Refused cs (.zeroComponent row)

variable {cs body : List Char} {row components : Bytes} {a : Address} {e : AddressError}

theorem spellsNumber_iff {part : List Char} {b : UInt8} :
    SpellsNumber part b.toNat ↔ Text.byte? 10 (Text.trim part) = some b := by
  rw [Text.byte?_eq_some_iff]
  constructor
  · rintro ⟨numeral, htrims, hnumeral⟩
    rwa [htrims.trim_eq]
  · exact fun h => ⟨_, Text.trims_trim part, h⟩

theorem SpellsNumber.dot_notMem {part : List Char} {n : Nat} (h : SpellsNumber part n) :
    '.' ∉ part := by
  obtain ⟨numeral, htrims, hnumeral⟩ := h
  obtain ⟨before, after, hbefore, hafter, rfl⟩ := htrims.around
  intro hdot
  simp only [List.mem_append] at hdot
  rcases hdot with (hdot | hdot) | hdot
  · exact absurd (hbefore _ hdot) (by decide)
  · exact absurd (hnumeral.mem hdot) (by decide)
  · exact absurd (hafter _ hdot) (by decide)

/-- A row is cut at the dots and read part by part. -/
theorem spellsRow_iff :
    SpellsRow body row ↔
      (Text.splitOn '.' body).mapM (fun part => Text.byte? 10 (Text.trim part)) = some row := by
  simp only [Text.mapM_eq_some_iff, ← spellsNumber_iff, Text.splitOn_eq]
  constructor
  · rintro ⟨parts, hne, rfl, hnumbers⟩
    have hnodot : ∀ part ∈ parts, '.' ∉ part :=
      ((List.forall₂_and_left _ _).1 (hnumbers.imp fun _ _ h => ⟨h.dot_notMem, h⟩)).1
    rwa [List.splitOn_intercalate '.' hnodot hne]
  · intro hnumbers
    exact ⟨body.splitOn '.', List.splitOn_ne_nil _ _, (List.intercalate_splitOn '.').symm, hnumbers⟩

theorem spellsRow_zero_iff : SpellsRow ['0'] row ↔ row = [0] := by
  rw [spellsRow_iff, @eq_comm _ row]
  exact Option.some_inj

theorem not_spellsRow_nil : ¬ SpellsRow [] row := fun h => nomatch spellsRow_iff.1 h

theorem spells_of_row (h : Trims cs body) (hrow : SpellsRow body row)
    (hdepth : row.length ≤ maxDepth) (hzero : 0 ∉ row) : Spells cs row := by
  obtain ⟨parts, hne, rfl, hnumbers⟩ := hrow
  have hlength := hnumbers.length_eq
  refine .dotted h (List.length_pos_iff.2 hne) (by omega) hnumbers fun b hb => ?_
  have hb0 : b.toNat ≠ 0 := by
    intro hb0
    have hb' : b = 0 := UInt8.toNat_inj.1 hb0
    exact hzero (hb' ▸ hb)
  have hlt := b.toNat_lt
  omega

/-- Every text stands for an address or is refused. -/
theorem spells_or_refused (cs : List Char) :
    (∃ components, Spells cs components) ∨ ∃ e, Refused cs e := by
  have htrims := Text.trims_trim cs
  generalize Text.trim cs = body at htrims
  by_cases hroot : body = [] ∨ body = ['0']
  · exact .inl ⟨[], .root htrims hroot⟩
  · rw [not_or] at hroot
    by_cases hrow : ∃ row, SpellsRow body row
    · obtain ⟨row, hrow⟩ := hrow
      by_cases hdepth : row.length ≤ maxDepth
      · by_cases hzero : 0 ∈ row
        · exact .inr ⟨_, .zeroComponent htrims hroot.2 hrow hdepth hzero⟩
        · exact .inl ⟨row, spells_of_row htrims hrow hdepth hzero⟩
      · exact .inr ⟨_, .tooDeep htrims hrow (by omega)⟩
    · exact .inr ⟨_, .unreadable htrims hroot.1 hrow⟩

/-! ## Reading -/

theorem ofChars_of_row (h : Trims cs body) (hrow : SpellsRow body row) (hbody : body ≠ ['0']) :
    ofChars cs = ofComponents row := by
  have hne : ¬ (body = [] ∨ body = ['0']) := by
    rintro (rfl | rfl)
    · exact not_spellsRow_nil hrow
    · exact hbody rfl
  rw [ofChars, h.trim_eq, if_neg hne, spellsRow_iff.1 hrow]

theorem ofChars_of_no_row (h : Trims cs body) (hrow : ¬ ∃ row, SpellsRow body row)
    (hbody : body ≠ []) : ofChars cs = .error (.unreadable (String.ofList body)) := by
  have hne : ¬ (body = [] ∨ body = ['0']) := by
    rintro (rfl | rfl)
    · exact hbody rfl
    · exact hrow ⟨_, spellsRow_zero_iff.2 rfl⟩
  have hread : (Text.splitOn '.' body).mapM (fun part => Text.byte? 10 (Text.trim part)) = none :=
    Option.eq_none_iff_forall_ne_some.2 fun row hread => hrow ⟨row, spellsRow_iff.2 hread⟩
  rw [ofChars, h.trim_eq, if_neg hne, hread]

theorem Spells.ofChars_eq (h : Spells cs components) :
    ∃ a : Address, ofChars cs = .ok a ∧ a.components = components := by
  cases h
  case root body htrims hbody =>
    refine ⟨.root, ?_, rfl⟩
    rw [ofChars, htrims.trim_eq, if_pos hbody]
  case dotted parts htrims hone hdepth hnumbers hvalues =>
    have hzero : 0 ∉ components := fun hmem => absurd (hvalues 0 hmem).1 (by decide)
    have hrow : SpellsRow (['.'].intercalate parts) components :=
      ⟨parts, List.length_pos_iff.1 hone, rfl, hnumbers⟩
    have hbody : ['.'].intercalate parts ≠ ['0'] := by
      intro hbody
      rw [hbody, spellsRow_zero_iff] at hrow
      exact hzero (by simp [hrow])
    have hlength := hnumbers.length_eq
    obtain ⟨a, ha⟩ := exists_components_iff.2 ⟨hlength ▸ hdepth, hzero⟩
    refine ⟨a, ?_, ha⟩
    rw [ofChars_of_row htrims hrow hbody, ofComponents_eq_ok_iff, ha]

theorem Refused.ofChars_eq (h : Refused cs e) : ofChars cs = .error e := by
  cases h
  case unreadable body htrims hbody hrow => exact ofChars_of_no_row htrims hrow hbody
  case tooDeep body row htrims hrow hdepth =>
    have hbody : body ≠ ['0'] := by
      rintro rfl
      rw [spellsRow_zero_iff.1 hrow] at hdepth
      exact absurd hdepth (by decide)
    rw [ofChars_of_row htrims hrow hbody, ofComponents, dif_neg (Nat.not_le.2 hdepth)]
  case zeroComponent body row htrims hbody hrow hdepth hzero =>
    have hnot : ¬ row.all (· != 0) = true := by
      rw [List.all_eq_true]
      exact fun hall => absurd (hall 0 hzero) (by decide)
    rw [ofChars_of_row htrims hrow hbody, ofComponents, dif_pos hdepth, dif_neg hnot]

theorem ofChars_eq_ok_iff : ofChars cs = .ok a ↔ Spells cs a.components := by
  constructor
  · intro h
    obtain ⟨components, hspells⟩ | ⟨e, hrefused⟩ := spells_or_refused cs
    · obtain ⟨b, hb, rfl⟩ := hspells.ofChars_eq
      rw [h] at hb
      cases hb
      exact hspells
    · rw [hrefused.ofChars_eq] at h
      cases h
  · intro h
    obtain ⟨b, hb, hcomponents⟩ := h.ofChars_eq
    rw [hb, eq_of_components_eq hcomponents]

theorem ofChars_eq_error_iff : ofChars cs = .error e ↔ Refused cs e := by
  refine ⟨fun h => ?_, Refused.ofChars_eq⟩
  obtain ⟨components, hspells⟩ | ⟨e', hrefused⟩ := spells_or_refused cs
  · obtain ⟨b, hb, -⟩ := hspells.ofChars_eq
    rw [hb] at h
    cases h
  · rw [hrefused.ofChars_eq] at h
    cases h
    exact hrefused

theorem exists_error_iff :
    (∃ e, ofChars cs = .error e) ↔ ¬ ∃ components, Spells cs components := by
  constructor
  · rintro ⟨e, he⟩ ⟨components, hspells⟩
    obtain ⟨b, hb, -⟩ := hspells.ofChars_eq
    rw [hb] at he
    cases he
  · intro hnot
    obtain ⟨e, hrefused⟩ := (spells_or_refused cs).resolve_left hnot
    exact ⟨e, hrefused.ofChars_eq⟩

/-! ## In JSON -/

theorem escapeChar_of_isVisible {c : Char} (h : Text.isVisible c = true) (hquote : c ≠ '"')
    (hbackslash : c ≠ '\\') : JsonValue.escapeChar c = [c] := by
  have hlow : 0x21 ≤ c.toNat := of_decide_eq_true (Bool.and_eq_true_iff.1 h).1
  have hne : ∀ d : Char, d.toNat < 0x21 → c ≠ d := by
    rintro d hd rfl
    omega
  have hcontrol : c.toNat ≠ 8 ∧ c.toNat ≠ 12 ∧ ¬ c.toNat < 0x20 := by omega
  simp [JsonValue.escapeChar, hquote, hbackslash, hne '\n' (by decide), hne '\r' (by decide),
    hne '\t' (by decide), hcontrol]

/-- Nothing in the text of an address has to be escaped. -/
theorem stringText_text (a : Address) : JsonValue.stringText a.text = "\"" ++ a.text ++ "\"" := by
  have hplain : ∀ c ∈ a.chars, JsonValue.escapeChar c = [c] := by
    intro c hc
    refine escapeChar_of_isVisible (isVisible_of_mem_chars hc) ?_ ?_
    · rintro rfl
      exact absurd (of_mem_chars hc) (by decide)
    · rintro rfl
      exact absurd (of_mem_chars hc) (by decide)
  have hchars : a.chars.flatMap JsonValue.escapeChar = a.chars :=
    (List.flatMap_congr hplain).trans (List.flatMap_singleton' _)
  rw [JsonValue.stringText, text, String.toList_ofList, hchars]
  apply String.toList_inj.1
  simp

/-- **An address is read from the texts that spell it and from no other.** A text that spells none
is refused, with the text, the depth or the components that were at fault. An address is read back
from what it is written as, and no two are written alike. In JSON an address is the string of its
text, none of whose characters has to be escaped, and it is read from that string as from any text;
how JSON text is read as a string is not modelled. -/
theorem parsed_as_spelled (s : String) (a b : Address) :
    (parse s = .ok a ↔ Spells s.toList a.components) ∧
      (∀ e, parse s = .error e ↔ Refused s.toList e) ∧
      ((∃ e, parse s = .error e) ↔ ¬ ∃ components, Spells s.toList components) ∧
      parse a.text = .ok a ∧ (a.text = b.text ↔ a = b) ∧
      ofJson a.toJson = .ok a ∧ JsonValue.stringText a.text = "\"" ++ a.text ++ "\"" := by
  refine ⟨ofChars_eq_ok_iff, fun e => ofChars_eq_error_iff, exists_error_iff, a.parse_text, ?_, ?_,
    a.stringText_text⟩
  · refine ⟨fun h => ?_, congrArg text⟩
    have hread := a.parse_text
    rw [h, b.parse_text] at hread
    exact (Except.ok.inj hread).symm
  · rw [toJson, ofJson, parse_text]
    rfl

example : (parse " +01 . 2").toOption.map (·.components) = some [1, 2] := by decide

end Address
end RailBus
