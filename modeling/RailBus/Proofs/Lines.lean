import RailBus.CommandLine.Execute
import RailBus.Proofs.Damage
import RailBus.Proofs.Spelling

/-!
# Lines

What a command prints is made of lines, and what stands on a line has no line break in it. So the
lines can be read off the text (`linesOf_lines`).
-/

namespace RailBus

namespace Text

/-- The lines of a text; an empty text has none. -/
def linesOf (s : String) : List String :=
  if s = "" then [] else (s.toList.splitOn '\n').map String.ofList

/-- There is no line break in the text. -/
def Unbroken (s : String) : Prop := '\n' ∉ s.toList

instance (s : String) : Decidable (Unbroken s) := inferInstanceAs (Decidable (_ ∉ _))

theorem unbroken_append {s t : String} : Unbroken (s ++ t) ↔ Unbroken s ∧ Unbroken t := by
  rw [Unbroken, String.toList_append, List.mem_append, not_or]
  rfl

theorem unbroken_of_visible {cs : List Char} (h : ∀ c ∈ cs, isVisible c = true) :
    Unbroken (String.ofList cs) := by
  rw [Unbroken, String.toList_ofList]
  exact fun hbreak => absurd (h _ hbreak) (by decide)

theorem unbroken_decimal (n : Nat) : Unbroken (toString n) := by
  have hdigits : ∀ c ∈ Nat.toDigits 10 n, isVisible c = true :=
    fun _ hc => isVisible_of_isDigit (isDigit_toDigits hc)
  exact unbroken_of_visible hdigits

theorem unbroken_address (a : Address) : Unbroken a.text :=
  unbroken_of_visible fun _ => Address.isVisible_of_mem_chars

theorem unbroken_hex (bs : Bytes) : Unbroken (Hex.encode bs) := by
  refine unbroken_of_visible fun c hc => ?_
  obtain ⟨b, -, hb⟩ := List.mem_flatMap.1 hc
  exact (Hex.of_mem_byteChars hb).1

theorem unbroken_hexByte (b : UInt8) : Unbroken (hexByte b) :=
  fun hbreak => absurd (isVisible_of_mem_hexByte hbreak) (by decide)

theorem unbroken_type (t : MessageType) : Unbroken t.text :=
  MessageType.text_cases (p := fun _ text => Unbroken text) (by decide +kernel) unbroken_hexByte t

/-- What may stand on a line. -/
structure IsLine (s : String) : Prop where
  ne_empty : s ≠ ""
  unbroken : Unbroken s

theorem IsLine.append {s t : String} (hs : IsLine s) (ht : Unbroken t) : IsLine (s ++ t) :=
  ⟨by simp [hs.ne_empty], unbroken_append.2 ⟨hs.unbroken, ht⟩⟩

/-- Lines are read off the text that is made of them. -/
theorem linesOf_lines {ls : List String} (h : ∀ l ∈ ls, IsLine l) :
    linesOf (Command.lines ls) = ls := by
  cases hls : ls with
  | nil => rfl
  | cons first rest =>
    rw [← hls]
    have htoList : (Command.lines ls).toList = ['\n'].intercalate (ls.map String.toList) := by
      rw [Command.lines, String.toList_intercalate]
      rfl
    have hsplit : (Command.lines ls).toList.splitOn '\n' = ls.map String.toList := by
      rw [htoList]
      refine List.splitOn_intercalate '\n' (fun cs hcs => ?_) (by simp [hls])
      obtain ⟨l, hl, rfl⟩ := List.mem_map.1 hcs
      exact (h l hl).unbroken
    have hnonempty : Command.lines ls ≠ "" := by
      intro hempty
      rw [hempty, hls] at hsplit
      have hfirst : first.toList = [] := (List.cons.inj hsplit).1.symm
      exact (h first (by simp [hls])).ne_empty (String.toList_eq_nil_iff.1 hfirst)
    rw [linesOf, if_neg hnonempty, hsplit, List.map_map]
    exact (List.map_congr_left fun l _ => String.ofList_toList).trans ls.map_id

end Text

open Text

theorem Message.isLine_line (m : Message) : IsLine m.line := by
  have hhead : IsLine s!"addr={m.address.text} seq={m.seq.toNat} type={m.type.text}" := by
    have haddress : IsLine (toString "addr=" ++ toString m.address.text) :=
      IsLine.append ⟨by decide, by decide⟩ (unbroken_address _)
    have hseq := (haddress.append (t := " seq=") (by decide)).append (unbroken_decimal m.seq.toNat)
    exact (hseq.append (t := " type=") (by decide)).append (unbroken_type _)
  unfold line
  split
  · exact hhead.append (by decide)
  · exact hhead.append (unbroken_append.2 ⟨by decide, unbroken_hex _⟩)

/-- What an assembler reports is told on a line. -/
theorem Assembler.Reported.unbroken_message {e : WireError} (h : Reported (.error e)) :
    Unbroken e.message := by
  cases e with
  | invalidAddress cause =>
    -- of wrong addresses only one that does not end is met with
    have hcause : WireError.invalidAddress cause = .invalidAddress .noTerminator := by
      by_contra hne
      exact absurd (h.isFraming_iff.2 hne) (by simp [WireError.isFraming])
    rw [hcause]
    decide
  | messageTooLarge size max =>
    exact absurd (h.isFraming_iff.2 (by simp)) (by simp [WireError.isFraming])
  | badEscape => decide
  | crcMismatch | truncated | invalidLength | overflow =>
    delta WireError.message
    simp only [unbroken_append, unbroken_hexByte, unbroken_decimal, and_true]
    decide

end RailBus
