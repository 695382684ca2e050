import RailBus.Proofs.Segments

/-!
# What was received, sent on

A message is read whatever its length byte says, but is sent only if its length is at most 127. So
whatever a stream delivers would be delivered again from one packet, and that packet can be encoded
exactly if no message in it is longer (`delivered_sendable_iff`).
-/

namespace RailBus

namespace Packet

/-- Where bytes are decoded, the last of them is the checksum of the messages before it. -/
theorem laidOut_of_decodeBody {bytes : Bytes} {ms : List Message}
    (h : decodeBody bytes = .ok ms) :
    ∃ body, bytes = body ++ [crc8 body] ∧ Message.LaidOut ms body := by
  cases hlast : bytes.getLast? with
  | none => simp [decodeBody, hlast] at h
  | some expected =>
    obtain ⟨body, rfl⟩ := List.getLast?_eq_some_iff.1 hlast
    by_cases hcrc : crc8 body = expected
    · refine ⟨body, by rw [hcrc], Message.decodeAll_eq_ok_iff.1 ?_⟩
      simpa [decodeBody, hcrc] using h
    · simp [decodeBody, hcrc] at h

/-- The error is that of the first message that is too long. -/
theorem encode_eq_error {ms : List Message} {e : WireError} (h : encode ms = .error e) :
    ∃ m ∈ ms, 127 < m.contentLength ∧ e = .messageTooLarge m.contentLength 127 := by
  induction ms with
  | nil => cases h
  | cons m rest ih =>
    cases hm : m.fits with
    | false =>
      have hlong : 127 < m.contentLength := Nat.not_le.1 (of_decide_eq_false hm)
      simp only [encode, body, Message.encode_of_not_fits hm, Except.map] at h
      cases h
      exact ⟨m, by simp, hlong, rfl⟩
    | true =>
      have hrest : encode rest = .error e := by
        cases hbody : body rest with
        | error e' => simpa [encode, body, Message.encode_of_fits hm, hbody, Except.map] using h
        | ok bytes => simp [encode, body, Message.encode_of_fits hm, hbody, Except.map] at h
      obtain ⟨m', hm', hlong⟩ := ih hrest
      exact ⟨m', List.mem_cons_of_mem _ hm', hlong⟩

end Packet

namespace Message

theorem validate_eq_ok_iff (m : Message) : m.validate = .ok () ↔ m.contentLength ≤ 127 := by
  by_cases h : m.contentLength ≤ 127 <;> simp [validate, fits, maxMessageLength, h]

end Message

namespace Assembler

/-- What a stream delivers is laid out in bytes that a packet can hold. -/
theorem laidOut_of_delivered {bs : Bytes} {ms : List Message}
    (h : .ok ms ∈ (({} : Assembler).pushAll bs).2) :
    ∃ body, body.length < maxPacketBody ∧ Message.LaidOut ms body := by
  have hreported : Reported (.ok ms) := reported_of_mem_pushAll (Nat.zero_le _) h
  generalize hresult : (.ok ms : Packet.Result) = result at hreported
  cases hreported with
  | badEscape => cases hresult
  | overflow => cases hresult
  | decoded hne hroom =>
    obtain ⟨body, rfl, hlaid⟩ := Packet.laidOut_of_decodeBody hresult.symm
    rw [List.length_append, List.length_singleton] at hroom
    exact ⟨body, hroom, hlaid⟩

theorem pushAll_frame (body : Bytes) :
    (({} : Assembler).pushAll (Packet.frame body)).2 = [outcome body] := by
  have hframes := pushAll_frames [body]
  rwa [List.flatMap_singleton, List.map_singleton] at hframes

/-- **What was received can be sent on, unless it is too long.** Messages that a stream delivers in
one packet are delivered again from a packet around their bytes. They can be encoded, and what they
are encoded to is delivered as they are, exactly if the length of each is at most 127; otherwise
the length of one of them is the error. -/
theorem delivered_sendable_iff {bs : Bytes} {ms : List Message}
    (h : .ok ms ∈ (({} : Assembler).pushAll bs).2) :
    (({} : Assembler).pushAll (Packet.frame (ms.flatMap Message.layout))).2 = [.ok ms] ∧
      (((∀ m ∈ ms, m.validate = .ok ()) ∧
          ∃ packet, Packet.encode ms = .ok packet ∧
            (({} : Assembler).pushAll packet).2 = [.ok ms]) ↔
        ∀ m ∈ ms, m.contentLength ≤ 127) ∧
      ∀ e, Packet.encode ms = .error e →
        ∃ m ∈ ms, 127 < m.contentLength ∧ m.contentLength ≤ 255 ∧
          e = .messageTooLarge m.contentLength 127 := by
  obtain ⟨body, hroom, hlaid⟩ := laidOut_of_delivered h
  have hbody : body = ms.flatMap Message.layout := (Message.laidOut_iff.1 hlaid).2
  have hagain : (({} : Assembler).pushAll (Packet.frame (ms.flatMap Message.layout))).2 =
      [.ok ms] := by
    rw [← hbody, pushAll_frame, outcome, if_pos hroom, hlaid.decodeAll_eq]
  refine ⟨hagain, ⟨?_, ?_⟩, ?_⟩
  · rintro ⟨hvalid, -⟩ m hm
    exact m.validate_eq_ok_iff.1 (hvalid m hm)
  · intro hshort
    constructor
    · intro m hm
      exact m.validate_eq_ok_iff.2 (hshort m hm)
    · refine ⟨_, Packet.encode_of_fits ?_, hagain⟩
      intro m hm
      exact decide_eq_true (hshort m hm)
  · intro e he
    obtain ⟨m, hm, hlong, rfl⟩ := Packet.encode_eq_error he
    exact ⟨m, hm, hlong, hlaid.length_le m hm, rfl⟩

/-- Noise, and a packet of two messages whose payload and checksum have to be unstuffed. -/
theorem stuffed_messages_sent_on :
    ∃ ms packet,
      .ok ms ∈ (({} : Assembler).pushAll
        [0x11, 0xFE, 5, 0, 7, 0x82, 0xFD, 0xDE, 0x0D, 3, 0, 8, 0x83, 0xFD, 0xDD, 0xFE]).2 ∧
      ms.length = 2 ∧ Packet.encode ms = .ok packet ∧
      (({} : Assembler).pushAll packet).2 = [.ok ms] := by
  have hread : (({} : Assembler).pushAll
      [0x11, 0xFE, 5, 0, 7, 0x82, 0xFD, 0xDE, 0x0D, 3, 0, 8, 0x83, 0xFD, 0xDD, 0xFE]).2 =
        [.ok [{ address := .root, seq := 7, type := ⟨0x82⟩, payload := [magic, 0x0D] },
          { address := .root, seq := 8, type := ⟨0x83⟩ }]] := by
    decide +kernel
  have hdelivered := List.mem_of_mem_head? (congrArg List.head? hread)
  obtain ⟨packet, hencode, hagain⟩ :=
    ((delivered_sendable_iff hdelivered).2.1.2 (by decide)).2
  exact ⟨_, packet, hdelivered, rfl, hencode, hagain⟩

/-- An answer with as many bytes of payload as make its length 128. -/
def longAnswer : Message := { address := .root, type := ⟨0x82⟩, payload := List.replicate 125 0 }

/-- A message that is delivered and cannot be sent on. -/
theorem long_answer_delivered :
    (({} : Assembler).pushAll (Packet.frame longAnswer.layout)).2 = [.ok [longAnswer]] ∧
      longAnswer.validate = .error (.messageTooLarge 128 127) ∧
      Packet.encode [longAnswer] = .error (.messageTooLarge 128 127) := by
  have hlength : longAnswer.contentLength = 128 := by
    simp [longAnswer, Message.contentLength, Address.stackLength, Address.depth, Address.root]
  have hfits : longAnswer.fits = false := by simp [Message.fits, hlength, maxMessageLength]
  have hlaid : Message.LaidOut [longAnswer] longAnswer.layout := by
    apply Message.laidOut_iff.2
    constructor
    · intro m hm
      rw [List.mem_singleton.1 hm, hlength]
      exact ⟨by decide, rfl⟩
    · simp
  refine ⟨?_, ?_, ?_⟩
  · have hroom : longAnswer.layout.length < maxPacketBody := by
      rw [Message.length_layout, hlength]
      decide
    rw [pushAll_frame, outcome, if_pos hroom, hlaid.decodeAll_eq]
  · simp [Message.validate, hfits, hlength, maxMessageLength]
  · simp [Packet.encode, Packet.body, Message.encode_of_not_fits hfits, hlength, maxMessageLength,
      Except.map]

end Assembler
end RailBus
