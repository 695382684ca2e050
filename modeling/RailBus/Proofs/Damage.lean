import RailBus.Proofs.Resending
import RailBus.Proofs.Traffic
import RailBus.Proofs.Unstuffing
import Mathlib.Data.List.TakeWhile

/-!
# How damage is named

What is read from a damaged stream is refused with an error that says so, with one exception: where
none of five bytes is the zero that ends an address, the error is that of an address which was given
wrong. The receiver counts it with the others all the same. What cannot be sent is never taken for
damage (`damage_is_framing`).
-/

namespace RailBus

namespace Address

/-- An address starts here and does not end where it has to. -/
def Endless (bytes : Bytes) : Prop := 5 ≤ bytes.length ∧ 0 ∉ bytes.take 5

theorem endless_iff (bytes : Bytes) :
    Endless bytes ↔
      ((bytes.take (maxDepth + 1)).takeWhile (· != 0)).length = maxDepth + 1 := by
  have hprefix : (bytes.take (maxDepth + 1)).takeWhile (· != 0) <+: bytes.take (maxDepth + 1) :=
    List.takeWhile_prefix _
  constructor
  · rintro ⟨hlength, hzero⟩
    have hall : (bytes.take (maxDepth + 1)).takeWhile (· != 0) = bytes.take (maxDepth + 1) := by
      rw [List.takeWhile_eq_self_iff]
      intro b hb
      have hne : b ≠ 0 := by
        rintro rfl
        exact hzero hb
      simpa using hne
    rw [hall, List.length_take]
    exact Nat.min_eq_left hlength
  · intro hlength
    have hle := hprefix.length_le
    rw [hlength, List.length_take] at hle
    have hall := hprefix.eq_of_length_le (by rw [hlength]; exact List.length_take_le _ _)
    constructor
    · exact le_trans hle (Nat.min_le_right _ _)
    · intro hmem
      have hmem' : (0 : UInt8) ∈ (bytes.take (maxDepth + 1)).takeWhile (· != 0) := by
        rw [hall]
        exact hmem
      simpa using List.mem_takeWhile_imp hmem'

theorem read_of_endless {bytes : Bytes} (h : Endless bytes) :
    read bytes = .error (.invalidAddress .noTerminator) := by
  simp only [read, if_pos ((endless_iff bytes).1 h)]

/-- An address that ends can only be cut off. -/
theorem read_eq_error {bytes : Bytes} {e : WireError} (hends : ¬ Endless bytes)
    (h : read bytes = .error e) : ∃ needed available, e = .truncated needed available := by
  have hlength := mt (endless_iff bytes).2 hends
  have hle : ((bytes.take (maxDepth + 1)).takeWhile (· != 0)).length ≤ maxDepth + 1 :=
    le_trans (List.takeWhile_prefix _).length_le (List.length_take_le _ _)
  have hdepth : ((bytes.take (maxDepth + 1)).takeWhile (· != 0)).length ≤ maxDepth := by omega
  have hzero : ((bytes.take (maxDepth + 1)).takeWhile (· != 0)).all (· != 0) = true :=
    List.all_takeWhile
  simp only [read, if_neg hlength, ofComponents, dif_pos hdepth, dif_pos hzero] at h
  split at h
  · cases h
    exact ⟨_, _, rfl⟩
  · cases h

end Address

namespace Message

theorem decode_of_endless {bytes : Bytes} (h : Address.Endless bytes) :
    decode bytes = .error (.invalidAddress .noTerminator) := by
  rw [decode, Address.read_of_endless h]

theorem decode_eq_error {bytes : Bytes} {e : WireError} (hends : ¬ Address.Endless bytes)
    (h : decode bytes = .error e) : ∃ needed available, e = .truncated needed available := by
  unfold decode at h
  split at h
  case h_1 e' hread =>
    cases h
    exact Address.read_eq_error hends hread
  case h_2 => cases h
  case h_3 =>
    cases h
    exact ⟨_, _, rfl⟩

/-- The first message that is not well formed has all the bytes that its length claims, and its
address does not end in them. -/
def Endless (bytes : Bytes) : Prop :=
  ∃ ms front length rest, LaidOut ms front ∧ bytes = front ++ length :: rest ∧
    3 ≤ length.toNat ∧ length.toNat ≤ rest.length ∧ Address.Endless (rest.take length.toNat)

theorem decodeAll_of_endless {bytes : Bytes} (h : Endless bytes) :
    decodeAll bytes = .error (.invalidAddress .noTerminator) := by
  obtain ⟨ms, front, length, rest, hlaid, rfl, hleast, henough, hendless⟩ := h
  apply decodeAll_eq_error_iff.2
  exact ⟨ms, front, _, hlaid, rfl, .content hleast henough (decode_of_endless hendless)⟩

theorem isFraming_of_decodeAll {bytes : Bytes} {e : WireError} (hends : ¬ Endless bytes)
    (h : decodeAll bytes = .error e) : e.isFraming = true := by
  obtain ⟨ms, front, rest, hlaid, hbytes, hdamaged⟩ := decodeAll_eq_error_iff.1 h
  cases hdamaged with
  | length => rfl
  | cutOff => rfl
  | @content length rest e hleast henough hdecode =>
    have hcontent : ¬ Address.Endless (rest.take length.toNat) := by
      intro hendless
      exact hends ⟨ms, front, length, rest, hlaid, hbytes, hleast, henough, hendless⟩
    obtain ⟨needed, available, rfl⟩ := decode_eq_error hcontent hdecode
    rfl

theorem isFraming_decodeAll_iff {bytes : Bytes} {e : WireError}
    (h : decodeAll bytes = .error e) : e.isFraming = true ↔ ¬ Endless bytes := by
  constructor
  · intro hframing hendless
    rw [decodeAll_of_endless hendless] at h
    cases h
    cases hframing
  · intro hends
    exact isFraming_of_decodeAll hends h

end Message

namespace Packet

/-- The checksum is right, and the address of a message does not end. -/
def Endless (bytes : Bytes) : Prop := ∃ body, bytes = body ++ [crc8 body] ∧ Message.Endless body

theorem decodeBody_of_endless {bytes : Bytes} (h : Endless bytes) :
    decodeBody bytes = .error (.invalidAddress .noTerminator) := by
  obtain ⟨body, rfl, hbody⟩ := h
  rw [Assembler.decodeBody_concat, Message.decodeAll_of_endless hbody]

theorem isFraming_of_decodeBody {bytes : Bytes} {e : WireError} (hends : ¬ Endless bytes)
    (h : decodeBody bytes = .error e) : e.isFraming = true := by
  cases hlast : bytes.getLast? with
  | none =>
    simp only [decodeBody, hlast] at h
    cases h
    rfl
  | some expected =>
    obtain ⟨body, rfl⟩ := List.getLast?_eq_some_iff.1 hlast
    by_cases hcrc : crc8 body = expected
    · subst hcrc
      rw [Assembler.decodeBody_concat] at h
      apply Message.isFraming_of_decodeAll _ h
      intro hbody
      exact hends ⟨body, rfl, hbody⟩
    · simp only [decodeBody, List.getLast?_append, List.getLast?_singleton, Option.some_or,
        List.dropLast_concat, if_neg hcrc] at h
      cases h
      rfl

theorem isFraming_decodeBody_iff {bytes : Bytes} {e : WireError}
    (h : decodeBody bytes = .error e) : e.isFraming = true ↔ ¬ Endless bytes := by
  constructor
  · intro hframing hendless
    rw [decodeBody_of_endless hendless] at h
    cases h
    cases hframing
  · intro hends
    exact isFraming_of_decodeBody hends h

end Packet

/-- What an assembler reports as an error says that it is damage, or that an address is wrong. -/
theorem Assembler.Reported.isFraming_iff {e : WireError} (h : Reported (.error e)) :
    e.isFraming = true ↔ e ≠ .invalidAddress .noTerminator := by
  generalize hresult : (.error e : Packet.Result) = result at h
  cases h with
  | badEscape =>
    cases hresult
    simp [WireError.isFraming]
  | overflow =>
    cases hresult
    simp [WireError.isFraming]
  | @decoded body hne hroom =>
    rw [Packet.isFraming_decodeBody_iff hresult.symm]
    apply not_congr
    constructor
    · intro hendless
      rw [Packet.decodeBody_of_endless hendless] at hresult
      cases hresult
      rfl
    · rintro rfl
      by_contra hends
      cases Packet.isFraming_of_decodeBody hends hresult.symm

/-! ## Errors on both sides of a link -/

/-- The checksum was wrong. -/
def WireError.isMismatch : WireError → Bool
  | crcMismatch _ _ => true
  | _ => false

namespace Link

/-- A packet that could not be read is counted, and that is all. -/
theorem handlePacket_error (l : Link) (e : WireError) :
    l.handlePacket (.error e) =
      if e.isMismatch then { l with crcErrors := l.crcErrors + 1 }
      else { l with framingErrors := l.framingErrors + 1 } := by
  cases e <;> rfl

theorem send_eq_error {l : Link} {a : Address} {r : Request} {e : LinkError}
    (h : (l.send a r).2 = .error e) :
    e = .wire (.messageTooLarge (r.toMessage a magic).contentLength 127) ∨
      e = .capacity (framedLength (r.toMessage a magic).layout) l.flow.limit := by
  cases hc : l.flow.checkFits a r with
  | ok u => simp [send, Flow.send_eq_ok_of_fits hc] at h
  | error e' =>
    simp only [send, Flow.send_eq_error hc, Except.error.injEq] at h
    subst h
    cases hfits : (r.toMessage a magic).fits with
    | false =>
      simp only [Flow.checkFits, Message.encode_of_not_fits hfits, Except.error.injEq] at hc
      exact .inl hc.symm
    | true =>
      simp only [Flow.checkFits, Message.encode_of_fits hfits] at hc
      split at hc
      · cases hc
      · cases hc
        exact .inr rfl

end Link

/-- **Damage is named as damage, but for an address that does not end.** Every error that is read
off a stream, a packet, messages or stuffed bytes is one of framing, unless none of the five bytes
that begin a message ends its address. The receiver counts all of them as damage, a wrong checksum
apart from the others. No error of a message that cannot be encoded or sent is one of framing. -/
theorem WireError.damage_is_framing (bytes : Bytes) (ms : List Message) (l : Link) (a : Address)
    (r : Request) :
    (∀ e, .error e ∈ (({} : Assembler).pushAll bytes).2 →
        (e.isFraming = true ↔ e ≠ .invalidAddress .noTerminator)) ∧
      (∀ e, Packet.decodeBody bytes = .error e →
        (e.isFraming = true ↔ ¬ Packet.Endless bytes)) ∧
      (∀ e, Message.decodeAll bytes = .error e →
        (e.isFraming = true ↔ ¬ Message.Endless bytes)) ∧
      (∀ e, unescape bytes = .error e → e.isFraming = true) ∧
      (∀ e, l.handlePacket (.error e) =
        if e.isMismatch then { l with crcErrors := l.crcErrors + 1 }
        else { l with framingErrors := l.framingErrors + 1 }) ∧
      (∀ m ∈ ms, ∀ e, m.encode = .error e → e.isFraming = false) ∧
      (∀ e, Packet.encode ms = .error e → e.isFraming = false) ∧
      ∀ e, (l.send a r).2 = .error e →
        (∃ size, e = .capacity size l.flow.limit) ∨
          ∃ cause, e = .wire cause ∧ cause.isFraming = false := by
  refine ⟨?_, ?_, ?_, ?_, l.handlePacket_error, ?_, ?_, ?_⟩
  · intro e h
    exact (Assembler.reported_of_mem_pushAll (Nat.zero_le _) h).isFraming_iff
  · intro e h
    exact Packet.isFraming_decodeBody_iff h
  · intro e h
    exact Message.isFraming_decodeAll_iff h
  · intro e h
    rw [(unescape_error_iff.1 h).1]
    rfl
  · intro m _ e h
    cases hm : m.fits with
    | true => simp [Message.encode_of_fits hm] at h
    | false =>
      rw [Message.encode_of_not_fits hm] at h
      cases h
      rfl
  · intro e h
    obtain ⟨m, -, -, rfl⟩ := Packet.encode_eq_error h
    rfl
  · intro e h
    rcases Link.send_eq_error h with rfl | rfl
    · exact .inr ⟨_, rfl, rfl⟩
    · exact .inl ⟨_, rfl⟩

/-- A packet that ends within an escape, and one whose message is cut off, though its checksum is
right. -/
theorem WireError.cut_off_packets_are_framing :
    ∃ e e', (({} : Assembler).pushAll [0xFE, 3, 0xFD, 0xFE, 9, 0, 0xB2, 0xFE]).2 =
        [.error e, .error e'] ∧ e.isFraming = true ∧ e'.isFraming = true := by
  have hread : (({} : Assembler).pushAll [0xFE, 3, 0xFD, 0xFE, 9, 0, 0xB2, 0xFE]).2 =
      [.error .badEscape, .error (.truncated 9 1)] := by
    decide +kernel
  obtain ⟨hframing, -⟩ := damage_is_framing [0xFE, 3, 0xFD, 0xFE, 9, 0, 0xB2, 0xFE] []
    (Link.new {}) .root Session.magicRequest
  rw [hread] at hframing
  refine ⟨_, _, hread, ?_, ?_⟩
  · exact (hframing _ (by simp)).2 (by simp)
  · exact (hframing _ (by simp)).2 (by simp)

/-- A packet with a right checksum whose one message is five bytes of an address. It is counted as
damage, and its error does not say so. -/
theorem WireError.endless_address_not_framing :
    (({} : Assembler).pushAll [0xFE, 5, 1, 2, 3, 4, 5, 0xC1, 0xFE]).2 =
        [.error (.invalidAddress .noTerminator)] ∧
      (WireError.invalidAddress .noTerminator).isFraming = false := by
  refine ⟨?_, rfl⟩
  decide +kernel

end RailBus
