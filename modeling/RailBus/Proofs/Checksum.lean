import RailBus.Packet
import Mathlib.Algebra.Ring.Parity
import Mathlib.Logic.Function.Iterate

/-!
# What the checksum notices

The register takes the bits of a packet in the order they are sent in, the least significant of
each byte first, and it is linear in them (`feedAll_flips`). So the checksum of a damaged packet
tells what the damage alone would leave in the register. An odd number of wrong bits leaves an odd
number of bits there (`weight_feedAll`), and wrong bits so close together that they are all in the
register at one time leave it different from zero (`feedAll_burst`).
-/

namespace RailBus
namespace Checksum

/-! ## Bits -/

/-- The bits of a byte in the order they are sent in. -/
def byteBits (b : UInt8) : List Bool := (List.range 8).map b.toNat.testBit

def bits (bs : Bytes) : List Bool := bs.flatMap byteBits

/-- The number that bits stand for. -/
def number : List Bool → Nat
  | [] => 0
  | bit :: rest => bit.toNat + 2 * number rest

theorem forall_byte {p : UInt8 → Prop} (h : ∀ n < 256, p (UInt8.ofNat n)) (b : UInt8) : p b := by
  have hb := h b.toNat b.toNat_lt
  rwa [UInt8.ofNat_toNat] at hb

theorem number_byteBits (b : UInt8) : number (byteBits b) = b.toNat :=
  forall_byte (p := fun b => number (byteBits b) = b.toNat) (by decide +kernel) b

theorem number_lt (bs : List Bool) : number bs < 2 ^ bs.length := by
  induction bs with
  | nil => exact Nat.one_pos
  | cons bit rest ih =>
    have hbit := bit.toNat_le
    rw [number, List.length_cons, Nat.pow_succ]
    omega

theorem number_ne_zero {bs : List Bool} (h : true ∈ bs) : number bs ≠ 0 := by
  induction bs with
  | nil => cases h
  | cons bit rest ih =>
    rw [number]
    rcases List.mem_cons.1 h with rfl | h
    · rw [Bool.toNat_true]
      omega
    · have hrest := ih h
      omega

theorem byteBits_injective {b c : UInt8} (h : byteBits b = byteBits c) : b = c := by
  have hnumber := congrArg number h
  rw [number_byteBits, number_byteBits] at hnumber
  exact UInt8.toNat_inj.1 hnumber

theorem length_byteBits (b : UInt8) : (byteBits b).length = 8 := by simp [byteBits]

theorem bits_cons (b : UInt8) (bs : Bytes) : bits (b :: bs) = byteBits b ++ bits bs := rfl

theorem length_bits (bs : Bytes) : (bits bs).length = 8 * bs.length := by
  induction bs with
  | nil => rfl
  | cons b rest ih =>
    rw [bits_cons, List.length_append, length_byteBits, ih, List.length_cons]
    omega

/-- Which bits of two byte strings differ. -/
def flips (bs cs : Bytes) : List Bool := List.zipWith xor (bits bs) (bits cs)

theorem flips_cons (b c : UInt8) (bs cs : Bytes) :
    flips (b :: bs) (c :: cs) = List.zipWith xor (byteBits b) (byteBits c) ++ flips bs cs :=
  List.zipWith_append (by simp only [length_byteBits])

theorem eq_of_zipWith_xor {xs ys : List Bool} (hlength : xs.length = ys.length)
    (h : true ∉ List.zipWith xor xs ys) : xs = ys := by
  induction xs generalizing ys with
  | nil => exact (List.eq_nil_of_length_eq_zero hlength.symm).symm
  | cons x xs ih =>
    cases ys with
    | nil => cases hlength
    | cons y ys =>
      rw [List.zipWith_cons_cons, List.mem_cons, not_or] at h
      have hhead : x = y := by
        have hsame := h.1
        cases x <;> cases y <;> simp at hsame ⊢
      rw [hhead, ih (Nat.succ.inj hlength) h.2]

theorem true_mem_flips {bs cs : Bytes} (hlength : bs.length = cs.length) (h : bs ≠ cs) :
    true ∈ flips bs cs := by
  by_contra hnone
  apply h
  induction bs generalizing cs with
  | nil => exact (List.eq_nil_of_length_eq_zero hlength.symm).symm
  | cons b rest ih =>
    cases cs with
    | nil => cases hlength
    | cons c more =>
      rw [flips_cons, List.mem_append, not_or] at hnone
      have hbits := eq_of_zipWith_xor (by simp only [length_byteBits]) hnone.1
      have hne : b :: rest ≠ c :: more → rest ≠ more := by
        rintro hne rfl
        exact hne (by rw [byteBits_injective hbits])
      rw [byteBits_injective hbits, ih (Nat.succ.inj hlength) (hne h) hnone.2]

/-- A bit differs in a byte that differs. -/
theorem ne_of_flips {bs cs : Bytes} {p : Nat} (h : (flips bs cs)[p]? = some true) :
    bs[p / 8]? ≠ cs[p / 8]? := by
  induction bs generalizing cs p with
  | nil => simp [flips, bits] at h
  | cons b rest ih =>
    cases cs with
    | nil => simp [flips, bits] at h
    | cons c more =>
      have hlength : (List.zipWith xor (byteBits b) (byteBits c)).length = 8 := by
        simp [length_byteBits]
      rw [flips_cons] at h
      by_cases hp : p < 8
      · have hzero : p / 8 = 0 := by omega
        rw [List.getElem?_append_left (by omega)] at h
        rw [hzero]
        intro heq
        have hbc : b = c := by simpa using heq
        have hmem := List.mem_of_getElem? h
        rw [hbc, List.zipWith_self] at hmem
        simp at hmem
      · have hnext : p / 8 = (p - 8) / 8 + 1 := by omega
        rw [List.getElem?_append_right (by omega), hlength] at h
        rw [hnext, List.getElem?_cons_succ, List.getElem?_cons_succ]
        exact ih h

/-! ## The register is linear -/

/-- Takes one bit into the register. -/
def feed (r : UInt8) (bit : Bool) : UInt8 := shift (r ^^^ bit.toUInt8)

def feedAll (r : UInt8) (bs : List Bool) : UInt8 := bs.foldl feed r

theorem low_bit (r : UInt8) : r &&& 1 = 0 ∨ r &&& 1 = 1 :=
  forall_byte (p := fun r => r &&& 1 = 0 ∨ r &&& 1 = 1) (by decide +kernel) r

theorem low_bit_xor (r s : UInt8) : (r ^^^ s) &&& 1 = (r &&& 1) ^^^ (s &&& 1) := by
  apply UInt8.toBitVec_inj.1
  ext i hi
  simp [Bool.and_xor_distrib_right]

theorem shift_xor (r s : UInt8) : shift (r ^^^ s) = shift r ^^^ shift s := by
  have hcancel : ∀ x y : UInt8, (x ^^^ polynomial) ^^^ (y ^^^ polynomial) = x ^^^ y := by
    intro x y
    calc (x ^^^ polynomial) ^^^ (y ^^^ polynomial)
        = (x ^^^ y) ^^^ (polynomial ^^^ polynomial) := by ac_rfl
      _ = x ^^^ y := by rw [UInt8.xor_self, UInt8.xor_zero]
  have hunset : ¬ (0 : UInt8) = 1 := by decide
  rcases low_bit r with hr | hr <;> rcases low_bit s with hs | hs <;>
    simp only [shift, low_bit_xor, hr, hs, UInt8.shiftRight_xor, UInt8.xor_zero, UInt8.zero_xor,
      UInt8.xor_self, hunset, if_true, if_false]
  · exact UInt8.xor_assoc ..
  · ac_rfl
  · exact (hcancel _ _).symm

theorem toUInt8_xor (x y : Bool) : (x ^^ y).toUInt8 = x.toUInt8 ^^^ y.toUInt8 := by
  cases x <;> cases y <;> rfl

theorem feed_xor (r s : UInt8) (x y : Bool) :
    feed (r ^^^ s) (x ^^ y) = feed r x ^^^ feed s y := by
  rw [feed, feed, feed, ← shift_xor, toUInt8_xor]
  congr 1
  ac_rfl

theorem feedAll_xor {xs ys : List Bool} (h : xs.length = ys.length) (r s : UInt8) :
    feedAll (r ^^^ s) (List.zipWith xor xs ys) = feedAll r xs ^^^ feedAll s ys := by
  induction xs generalizing ys r s with
  | nil =>
    rw [List.eq_nil_of_length_eq_zero h.symm]
    rfl
  | cons x xs ih =>
    cases ys with
    | nil => cases h
    | cons y ys =>
      show feedAll (feed (r ^^^ s) (x ^^ y)) (List.zipWith xor xs ys) = _
      rw [feed_xor, ih (Nat.succ.inj h)]
      rfl

theorem shift_double : ∀ v < 128, shift (UInt8.ofNat (2 * v)) = UInt8.ofNat v := by
  decide +kernel

theorem ofNat_bit_add (bit : Bool) :
    ∀ v < 128, UInt8.ofNat (bit.toNat + 2 * v) = bit.toUInt8 ^^^ UInt8.ofNat (2 * v) := by
  cases bit <;> decide +kernel

/-- No more bits than the register holds may be taken in one by one or all at once. -/
theorem feedAll_eq_iterate {bs : List Bool} (h : bs.length ≤ 8) (r : UInt8) :
    feedAll r bs = shift^[bs.length] (r ^^^ UInt8.ofNat (number bs)) := by
  induction bs generalizing r with
  | nil => exact UInt8.xor_zero.symm
  | cons bit rest ih =>
    rw [List.length_cons] at h
    have hrest : number rest < 128 := by
      have hpow : 2 ^ rest.length ≤ 2 ^ 7 := Nat.pow_le_pow_right (by decide) (by omega)
      exact Nat.lt_of_lt_of_le (number_lt rest) hpow
    have hfirst : feed r bit ^^^ UInt8.ofNat (number rest) =
        shift (r ^^^ UInt8.ofNat (number (bit :: rest))) := by
      rw [number, ofNat_bit_add bit _ hrest, ← UInt8.xor_assoc, shift_xor, shift_double _ hrest]
      rfl
    show feedAll (feed r bit) rest = _
    rw [ih (by omega), hfirst, List.length_cons, Function.iterate_succ_apply]

/-! ## Bytes are taken in bit by bit -/

theorem absorb_eq (r b : UInt8) : absorb r b = feedAll r (byteBits b) := by
  rw [feedAll_eq_iterate (Nat.le_of_eq (length_byteBits b)), length_byteBits, number_byteBits,
    UInt8.ofNat_toNat]
  rfl

theorem foldl_absorb (r : UInt8) (bs : Bytes) : bs.foldl absorb r = feedAll r (bits bs) := by
  induction bs generalizing r with
  | nil => rfl
  | cons b rest ih =>
    rw [List.foldl_cons, ih, absorb_eq, bits_cons, feedAll, feedAll, feedAll, List.foldl_append]

theorem crc8_eq_feedAll (bs : Bytes) : crc8 bs = feedAll 0 (bits bs) := foldl_absorb 0 bs

/-- The checksum of damaged bytes differs from that of the sound ones by the checksum of the
damage. -/
theorem feedAll_flips {bs cs : Bytes} (h : bs.length = cs.length) :
    feedAll 0 (flips bs cs) = crc8 bs ^^^ crc8 cs := by
  rw [crc8_eq_feedAll, crc8_eq_feedAll, ← feedAll_xor (by rw [length_bits, length_bits, h])]
  rfl

/-- Behind a message and its checksum the register is zero. -/
theorem crc8_sealed (m : Bytes) : crc8 (m ++ [crc8 m]) = 0 := by
  have hlast : crc8 (m ++ [crc8 m]) = absorb (crc8 m) (crc8 m) := by
    rw [crc8, List.foldl_append]
    rfl
  rw [hlast, absorb, UInt8.xor_self]
  decide

/-! ## The textbook form

The polynomial is usually written `0x31` and the register moved the other way. -/

/-- The bits of a register in reverse order. -/
def mirror (r : UInt8) : UInt8 := UInt8.ofNat (number (byteBits r).reverse)

/-- Takes one bit into a register that is moved to the left. -/
def textbookFeed (r : UInt8) (bit : Bool) : UInt8 :=
  if r.toNat.testBit 7 = bit then r <<< 1 else (r <<< 1) ^^^ 0x31

theorem mirror_feed (r : UInt8) (bit : Bool) :
    mirror (feed r bit) = textbookFeed (mirror r) bit := by
  refine forall_byte (p := fun r => mirror (feed r bit) = textbookFeed (mirror r) bit) ?_ r
  cases bit <;> decide +kernel

theorem mirror_mirror (r : UInt8) : mirror (mirror r) = r :=
  forall_byte (p := fun r => mirror (mirror r) = r) (by decide +kernel) r

/-- The checksum is the one with the polynomial `0x31`, bits of bytes and of the result reflected,
that starts at zero and adds nothing at the end. -/
theorem crc8_eq_textbook (bs : Bytes) : crc8 bs = mirror ((bits bs).foldl textbookFeed 0) := by
  have hmirror : ∀ (w : List Bool) (r : UInt8),
      mirror (feedAll r w) = w.foldl textbookFeed (mirror r) := by
    intro w
    induction w with
    | nil => exact fun r => rfl
    | cons bit rest ih =>
      intro r
      rw [List.foldl_cons, ← mirror_feed, ← ih]
      rfl
  have hzero : mirror 0 = 0 := by decide
  rw [crc8_eq_feedAll, ← hzero, ← hmirror, mirror_mirror, hzero]

/-! ## Damage that is noticed -/

/-- The number of bits that are set. -/
def weight (r : UInt8) : Nat := (byteBits r).count true

/-- The polynomial has an even number of terms, so a shift keeps the weight even or odd. -/
theorem weight_feed (r : UInt8) (bit : Bool) :
    weight (feed r bit) % 2 = (weight r + bit.toNat) % 2 := by
  refine forall_byte (p := fun r => weight (feed r bit) % 2 = (weight r + bit.toNat) % 2) ?_ r
  cases bit <;> decide +kernel

theorem weight_feedAll (r : UInt8) (bs : List Bool) :
    weight (feedAll r bs) % 2 = (weight r + bs.count true) % 2 := by
  induction bs generalizing r with
  | nil => rfl
  | cons bit rest ih =>
    have hfeed := weight_feed r bit
    have hcount : (bit :: rest).count true = rest.count true + bit.toNat := by
      cases bit <;> simp
    show weight (feedAll (feed r bit) rest) % 2 = _
    rw [ih, hcount]
    omega

theorem feedAll_odd {bs : List Bool} (h : Odd (bs.count true)) : feedAll 0 bs ≠ 0 := by
  intro hzero
  have hweight := weight_feedAll 0 bs
  have hnone : weight 0 = 0 := by decide
  rw [hzero, hnone, Nat.zero_add, Nat.odd_iff.1 h] at hweight
  cases hweight

theorem eq_zero_of_shift (r : UInt8) : shift r = 0 → r = 0 :=
  forall_byte (p := fun r => shift r = 0 → r = 0) (by decide +kernel) r

theorem iterate_shift_ne_zero {r : UInt8} (h : r ≠ 0) (k : Nat) : shift^[k] r ≠ 0 := by
  induction k with
  | zero => exact h
  | succ k ih =>
    rw [Function.iterate_succ_apply']
    exact fun hzero => ih (eq_zero_of_shift _ hzero)

/-- Sound bits only move the register on. -/
theorem feedAll_of_sound {bs : List Bool} (h : true ∉ bs) (r : UInt8) :
    feedAll r bs = shift^[bs.length] r := by
  induction bs generalizing r with
  | nil => rfl
  | cons bit rest ih =>
    rw [List.mem_cons, not_or] at h
    have hbit : bit = false := by
      have hne := h.1
      cases bit <;> simp at hne ⊢
    show feedAll (feed r bit) rest = _
    have hfeed : feed r false = shift r := congrArg shift UInt8.xor_zero
    rw [ih h.2, hbit, hfeed, List.length_cons, Function.iterate_succ_apply]

theorem iterate_shift_zero (k : Nat) : shift^[k] 0 = 0 :=
  Function.iterate_fixed (by decide) k

/-- Wrong bits that all are among eight in a row do not cancel out. -/
theorem feedAll_burst {bs : List Bool} {i : Nat} (h : true ∈ bs)
    (hi : ∀ p, bs[p]? = some true → i ≤ p ∧ p < i + 8) : feedAll 0 bs ≠ 0 := by
  have hbefore : true ∉ bs.take i := by
    intro hmem
    obtain ⟨p, hp⟩ := List.getElem?_of_mem hmem
    obtain ⟨hlt, -⟩ := List.getElem?_eq_some_iff.1 hp
    rw [List.length_take] at hlt
    rw [List.getElem?_take_of_lt (by omega)] at hp
    have hrange := hi p hp
    omega
  have hbehind : true ∉ (bs.drop i).drop 8 := by
    intro hmem
    obtain ⟨p, hp⟩ := List.getElem?_of_mem hmem
    rw [List.getElem?_drop, List.getElem?_drop] at hp
    have hrange := hi _ hp
    omega
  have hwindow : true ∈ (bs.drop i).take 8 := by
    rw [← List.take_append_drop i bs, ← List.take_append_drop 8 (bs.drop i), List.mem_append,
      List.mem_append] at h
    rcases h with h | h | h
    · exact absurd h hbefore
    · exact h
    · exact absurd h hbehind
  have hlength : ((bs.drop i).take 8).length ≤ 8 := List.length_take_le 8 _
  have hnumber : number ((bs.drop i).take 8) < 256 :=
    Nat.lt_of_lt_of_le (number_lt _) (Nat.pow_le_pow_right (by decide) hlength)
  -- the wrong bits are in the register together before any of them is shifted out
  have hheld : feedAll 0 ((bs.drop i).take 8) ≠ 0 := by
    rw [feedAll_eq_iterate hlength, UInt8.zero_xor]
    apply iterate_shift_ne_zero
    intro hzero
    have hnat := congrArg UInt8.toNat hzero
    rw [UInt8.toNat_ofNat', Nat.mod_eq_of_lt hnumber] at hnat
    exact number_ne_zero hwindow hnat
  rw [← List.take_append_drop i bs, ← List.take_append_drop 8 (bs.drop i), feedAll,
    List.foldl_append, List.foldl_append]
  show feedAll (feedAll (feedAll 0 (bs.take i)) ((bs.drop i).take 8)) ((bs.drop i).drop 8) ≠ 0
  rw [feedAll_of_sound hbefore, iterate_shift_zero, feedAll_of_sound hbehind]
  exact iterate_shift_ne_zero hheld _

end Checksum

namespace Packet

theorem decodeBody_of_crc8_ne {body : Bytes} {expected : UInt8}
    (h : crc8 (body ++ [expected]) ≠ 0) :
    decodeBody (body ++ [expected]) = .error (.crcMismatch expected (crc8 body)) := by
  have hne : crc8 body ≠ expected := by
    rintro rfl
    exact h (Checksum.crc8_sealed body)
  simp [decodeBody, hne]

/-- What came is read as a packet with a wrong checksum, and no message is read from it. -/
def Stopped (damaged : Bytes) : Prop :=
  ∃ body expected, damaged = body ++ [expected] ∧ crc8 body ≠ expected ∧
    decodeBody damaged = .error (.crcMismatch expected (crc8 body))

/-- **The checksum stops damaged packets.** A message and its checksum, damaged in an odd number
of bits, or only in bits that are among eight sent in a row, or only in one byte, are read as a
packet with a wrong checksum, and no message is read from them. -/
theorem damage_stopped {m damaged : Bytes} (hlength : damaged.length = (m ++ [crc8 m]).length)
    (h : Odd ((Checksum.flips (m ++ [crc8 m]) damaged).count true) ∨
      damaged ≠ m ++ [crc8 m] ∧
        ((∃ i, ∀ p, (Checksum.flips (m ++ [crc8 m]) damaged)[p]? = some true →
            i ≤ p ∧ p < i + 8) ∨
          ∃ k, ∀ j : Nat, (m ++ [crc8 m])[j]? ≠ damaged[j]? → j = k)) :
    Stopped damaged := by
  have hdamage : crc8 damaged = Checksum.feedAll 0 (Checksum.flips (m ++ [crc8 m]) damaged) := by
    rw [Checksum.feedAll_flips hlength.symm, Checksum.crc8_sealed, UInt8.zero_xor]
  have hne : crc8 damaged ≠ 0 := by
    rw [hdamage]
    rcases h with hodd | ⟨hdiffer, h⟩
    · exact Checksum.feedAll_odd hodd
    · have hmem := Checksum.true_mem_flips hlength.symm hdiffer.symm
      rcases h with ⟨i, hi⟩ | ⟨k, hk⟩
      · exact Checksum.feedAll_burst hmem hi
      · apply Checksum.feedAll_burst (i := 8 * k) hmem
        intro p hp
        have hbyte := hk _ (Checksum.ne_of_flips hp)
        omega
  obtain ⟨body, expected, rfl⟩ : ∃ body expected, damaged = body ++ [expected] := by
    refine ⟨damaged.dropLast, damaged.getLast ?_, (List.dropLast_concat_getLast _).symm⟩
    rintro rfl
    simp at hlength
  refine ⟨body, expected, rfl, ?_, decodeBody_of_crc8_ne hne⟩
  rintro rfl
  exact hne (Checksum.crc8_sealed body)

/-- A request for the magic of the interface: eight bits in a row are wrong, or three that are far
from each other, or half of the checksum. -/
theorem damaged_request_stopped :
    Stopped [0xC3, 0x3F, 1, 1, 0x12] ∧ Stopped [2, 0, 0x81, 1, 0x1A] ∧
      Stopped [3, 0, 1, 1, 0x21] := by
  have hsealed : ([3, 0, 1, 1] : Bytes) ++ [crc8 [3, 0, 1, 1]] = [3, 0, 1, 1, 0x12] := by
    decide +kernel
  have hstopped := @damage_stopped [3, 0, 1, 1]
  rw [hsealed] at hstopped
  refine ⟨?_, ?_, ?_⟩
  · refine hstopped rfl (.inr ⟨by decide, .inl ⟨6, fun p hp => ?_⟩⟩)
    have hwindow : ∀ p < 40, (Checksum.flips [3, 0, 1, 1, 0x12]
        [0xC3, 0x3F, 1, 1, 0x12])[p]? = some true → 6 ≤ p ∧ p < 6 + 8 := by
      decide +kernel
    exact hwindow p (List.getElem?_eq_some_iff.1 hp).1 hp
  · exact hstopped rfl (.inl (by decide +kernel))
  · refine hstopped rfl (.inr ⟨by decide, .inr ⟨4, fun j hj => ?_⟩⟩)
    rcases j with _ | _ | _ | _ | _ | j
    case succ.succ.succ.succ.zero => rfl
    all_goals exact absurd rfl hj

end Packet
end RailBus
