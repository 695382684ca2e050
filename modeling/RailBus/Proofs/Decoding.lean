import RailBus.Packet
import RailBus.Proofs.Address
import RailBus.Proofs.Message

/-!
# What is decoded

A byte string is decoded exactly if it is messages laid out one behind the other, and these are what
it is decoded to. In any other byte string some message is the first that is not well formed, and
its damage is the error (`decodeAll_inverts_layout`).
-/

namespace RailBus

namespace Address

theorem takeWhile_append_zero {bytes : Bytes}
    (h : (bytes.takeWhile (· != 0)).length ≠ bytes.length) :
    ∃ rest, bytes = bytes.takeWhile (· != 0) ++ 0 :: rest := by
  have hsplit := List.takeWhile_append_dropWhile (p := (· != 0)) (l := bytes)
  cases hrest : bytes.dropWhile (· != 0) with
  | nil =>
    rw [hrest, List.append_nil] at hsplit
    exact absurd (congrArg List.length hsplit) h
  | cons b rest =>
    have hzero := List.head_dropWhile_not (· != 0) (l := bytes) (by simp [hrest])
    simp only [hrest, List.head_cons, bne_eq_false_iff_eq] at hzero
    rw [hrest, hzero] at hsplit
    exact ⟨rest, hsplit.symm⟩

/-- An address is read only where its stack stands. -/
theorem eq_stack_append_of_read {bytes rest : Bytes} {a : Address}
    (h : read bytes = .ok (a, rest)) : bytes = a.stack ++ rest := by
  simp only [read] at h
  split at h
  · cases h
  case isFalse hmany =>
    split at h
    · cases h
    case isFalse hall =>
      cases hof : ofComponents ((bytes.take (maxDepth + 1)).takeWhile (· != 0)) with
      | error e => simp [hof] at h
      | ok a' =>
        simp only [hof, Except.ok.injEq, Prod.mk.injEq] at h
        obtain ⟨rfl, rfl⟩ := h
        have hcomponents := components_of_ofComponents hof
        have hends : ((bytes.take (maxDepth + 1)).takeWhile (· != 0)).length ≠
            (bytes.take (maxDepth + 1)).length := by
          rw [List.length_take]
          omega
        obtain ⟨more, hmore⟩ := takeWhile_append_zero hends
        rw [← hcomponents] at hmore
        have hbytes : bytes = a'.stack ++ (more ++ bytes.drop (maxDepth + 1)) := by
          conv => lhs; rw [← List.take_append_drop (maxDepth + 1) bytes, hmore]
          simp [stack]
        have hdrop : bytes.drop a'.stackLength = more ++ bytes.drop (maxDepth + 1) := by
          conv => lhs; rw [hbytes]
          exact List.drop_left' (by simp [stack, stackLength, depth])
        rw [hdrop]
        exact hbytes

end Address

namespace Message

theorem decode_eq_ok_iff {bytes : Bytes} {m : Message} :
    decode bytes = .ok m ↔ bytes = m.content ∧ m.action = none := by
  constructor
  · intro h
    unfold decode at h
    split at h
    case h_1 => cases h
    case h_2 address seq code payload hread =>
      cases h
      exact ⟨Address.eq_stack_append_of_read hread, rfl⟩
    case h_3 => cases h
  · rintro ⟨rfl, haction⟩
    rw [decode_content, received, ← haction]

/-- The bytes are the messages one behind the other, each with its length first. -/
structure LaidOut (ms : List Message) (bytes : Bytes) : Prop where
  /-- the length byte can say how long the message is -/
  length_le : ∀ m ∈ ms, m.contentLength ≤ 255
  unmarked : ∀ m ∈ ms, m.action = none
  eq_flatMap : bytes = ms.flatMap fun m =>
    [UInt8.ofNat (m.address.stackLength + 2 + m.payload.length)] ++
      m.address.components ++ [0] ++ [m.seq, m.type.code] ++ m.payload

/-- The bytes start with a message that is not well formed. -/
inductive Damaged : Bytes → WireError → Prop
  | length {length : UInt8} {rest : Bytes} :
      length.toNat < 3 → Damaged (length :: rest) (.invalidLength length)
  | cutOff {length : UInt8} {rest : Bytes} :
      3 ≤ length.toNat → rest.length < length.toNat →
      Damaged (length :: rest) (.truncated length.toNat rest.length)
  | content {length : UInt8} {rest : Bytes} {e : WireError} :
      3 ≤ length.toNat → length.toNat ≤ rest.length →
      decode (rest.take length.toNat) = .error e → Damaged (length :: rest) e

/-! ## Messages laid out are decoded -/

theorem laidOut_iff {ms : List Message} {bytes : Bytes} :
    LaidOut ms bytes ↔
      (∀ m ∈ ms, m.contentLength ≤ 255 ∧ m.action = none) ∧ bytes = ms.flatMap layout := by
  have hlayout : (fun m : Message =>
      [UInt8.ofNat (m.address.stackLength + 2 + m.payload.length)] ++
        m.address.components ++ [0] ++ [m.seq, m.type.code] ++ m.payload) = layout := by
    funext m
    simp [layout, content, contentLength, Address.stack]
  constructor
  · rintro ⟨hlength, haction, hbytes⟩
    exact ⟨fun m hm => ⟨hlength m hm, haction m hm⟩, hlayout ▸ hbytes⟩
  · rintro ⟨hms, hbytes⟩
    exact ⟨fun m hm => (hms m hm).1, fun m hm => (hms m hm).2, hlayout ▸ hbytes⟩

theorem LaidOut.map_received {ms : List Message} {bytes : Bytes} (h : LaidOut ms bytes) :
    ms.map received = ms := by
  have hself : ∀ m ∈ ms, m.received = id m := by
    intro m hm
    show ({ m with action := none } : Message) = m
    rw [← h.unmarked m hm]
  rw [List.map_congr_left hself, List.map_id]

/-- Decoding goes through all that is laid out and on with what follows. -/
theorem LaidOut.decodeAll_append {ms : List Message} {front : Bytes} (h : LaidOut ms front)
    (rest : Bytes) : decodeAll (front ++ rest) = (decodeAll rest).map (ms ++ ·) := by
  have hall := decodeAll_layouts_append h.length_le rest
  rw [← (laidOut_iff.1 h).2, h.map_received] at hall
  exact hall

theorem LaidOut.decodeAll_eq {ms : List Message} {bytes : Bytes} (h : LaidOut ms bytes) :
    decodeAll bytes = .ok ms := by
  have hall := h.decodeAll_append []
  rw [List.append_nil] at hall
  rw [hall]
  simp [decodeAll, Except.map]

theorem Damaged.decodeAll_eq {bytes : Bytes} {e : WireError} (h : Damaged bytes e) :
    decodeAll bytes = .error e := by
  cases h with
  | @length length rest hlength =>
    have hleast : length.toNat < minMessageLength := hlength
    rw [decodeAll, if_pos hleast]
  | @cutOff length rest hlength hrest =>
    have hleast : ¬ length.toNat < minMessageLength := Nat.not_lt.2 hlength
    rw [decodeAll, if_neg hleast, if_pos hrest]
  | @content length rest e hlength hrest hdecode =>
    have hleast : ¬ length.toNat < minMessageLength := Nat.not_lt.2 hlength
    rw [decodeAll, if_neg hleast, if_neg (Nat.not_lt.2 hrest), hdecode]

/-! ## Nothing else is decoded -/

/-- A message stands where the bytes that its length byte claims are decoded. -/
theorem layout_append_of_decode {length : UInt8} {rest : Bytes} {m : Message}
    (hrest : length.toNat ≤ rest.length) (h : decode (rest.take length.toNat) = .ok m) :
    m.contentLength = length.toNat ∧ m.action = none ∧
      length :: rest = m.layout ++ rest.drop length.toNat := by
  obtain ⟨hcontent, haction⟩ := decode_eq_ok_iff.1 h
  have hlength : m.contentLength = length.toNat := by
    rw [← m.length_content, ← hcontent, List.length_take]
    omega
  refine ⟨hlength, haction, ?_⟩
  rw [layout, hlength, UInt8.ofNat_toNat, ← hcontent, List.cons_append, List.take_append_drop]

/-- Any byte string is messages laid out, up to its end or to the first that is damaged. -/
theorem laidOut_or_damaged (bytes : Bytes) :
    (∃ ms, LaidOut ms bytes) ∨
      ∃ ms front rest e, LaidOut ms front ∧ bytes = front ++ rest ∧ Damaged rest e := by
  have hnil : LaidOut [] [] := laidOut_iff.2 ⟨by simp, rfl⟩
  induction bytes using decodeAll.induct with
  | case1 => exact .inl ⟨[], hnil⟩
  | case2 length rest hlength => exact .inr ⟨[], [], _, _, hnil, rfl, .length hlength⟩
  | case3 length rest hlength hrest =>
    exact .inr ⟨[], [], _, _, hnil, rfl, .cutOff (Nat.not_lt.1 hlength) hrest⟩
  | case4 length rest hlength hrest e hdecode =>
    exact .inr ⟨[], [], _, _, hnil, rfl,
      .content (Nat.not_lt.1 hlength) (Nat.not_lt.1 hrest) hdecode⟩
  | case5 length rest hlength hrest m hdecode ih =>
    obtain ⟨hcontent, haction, hbytes⟩ := layout_append_of_decode (Nat.not_lt.1 hrest) hdecode
    have hbyte := length.toNat_lt
    have hcons : ∀ {ms : List Message} {front : Bytes}, LaidOut ms front →
        LaidOut (m :: ms) (m.layout ++ front) := by
      intro ms front h
      obtain ⟨hms, rfl⟩ := laidOut_iff.1 h
      refine laidOut_iff.2 ⟨?_, rfl⟩
      rintro m' (_ | ⟨_, hm'⟩)
      · exact ⟨by omega, haction⟩
      · exact hms m' hm'
    rw [hbytes]
    rcases ih with ⟨ms, hms⟩ | ⟨ms, front, rest', e, hms, hfront, hdamaged⟩
    · exact .inl ⟨m :: ms, hcons hms⟩
    · refine .inr ⟨m :: ms, m.layout ++ front, rest', e, hcons hms, ?_, hdamaged⟩
      rw [hfront, List.append_assoc]

theorem decodeAll_eq_ok_iff {bytes : Bytes} {ms : List Message} :
    decodeAll bytes = .ok ms ↔ LaidOut ms bytes := by
  refine ⟨fun h => ?_, LaidOut.decodeAll_eq⟩
  rcases laidOut_or_damaged bytes with ⟨ms', hms'⟩ | ⟨ms', front, rest, e, hms', rfl, hdamaged⟩
  · rw [hms'.decodeAll_eq] at h
    cases h
    exact hms'
  · rw [hms'.decodeAll_append, hdamaged.decodeAll_eq] at h
    cases h

theorem decodeAll_eq_error_iff {bytes : Bytes} {e : WireError} :
    decodeAll bytes = .error e ↔
      ∃ ms front rest, LaidOut ms front ∧ bytes = front ++ rest ∧ Damaged rest e := by
  constructor
  · intro h
    rcases laidOut_or_damaged bytes with ⟨ms, hms⟩ | ⟨ms, front, rest, e', hms, rfl, hdamaged⟩
    · rw [hms.decodeAll_eq] at h
      cases h
    · rw [hms.decodeAll_append, hdamaged.decodeAll_eq] at h
      cases h
      exact ⟨ms, front, rest, hms, rfl, hdamaged⟩
  · rintro ⟨ms, front, rest, hms, rfl, hdamaged⟩
    rw [hms.decodeAll_append, hdamaged.decodeAll_eq]
    rfl

end Message

namespace Packet

theorem body_of_fits {ms : List Message} (h : ∀ m ∈ ms, m.fits = true) :
    body ms = .ok (ms.flatMap Message.layout) := by
  induction ms with
  | nil => rfl
  | cons m rest ih =>
    have hrest := ih fun m' h' => h m' (List.mem_cons_of_mem _ h')
    rw [body, Message.encode_of_fits (h m (by simp)), hrest]
    rfl

theorem fits_of_body {ms : List Message} {bytes : Bytes} (h : body ms = .ok bytes) :
    ∀ m ∈ ms, m.fits = true := by
  induction ms generalizing bytes with
  | nil => simp
  | cons m rest ih =>
    cases hm : m.fits with
    | false => simp [body, Message.encode_of_not_fits hm] at h
    | true =>
      rw [body, Message.encode_of_fits hm] at h
      cases hrest : body rest with
      | error e => simp [hrest, Except.map] at h
      | ok more => simpa [hm] using ih hrest

end Packet

/-- **Decoding inverts the layout of messages.** A byte string is decoded to the messages that it
is laid out as, and no other messages are laid out so. What is decoded is what was encoded, but for
the action ids, and is encoded to the same bytes again if it may be sent at all. A byte string that
is no messages is refused, for the damage of the first message from the left that is not well
formed. -/
theorem Message.decodeAll_inverts_layout (bytes : Bytes) :
    (∀ ms, decodeAll bytes = .ok ms ↔ LaidOut ms bytes) ∧
      (∀ ms ms', LaidOut ms bytes → LaidOut ms' bytes → ms = ms') ∧
      (∀ ms, Packet.body ms = .ok bytes → decodeAll bytes = .ok (ms.map received)) ∧
      (∀ ms, decodeAll bytes = .ok ms → (∀ m ∈ ms, m.contentLength ≤ 127) →
        Packet.body ms = .ok bytes) ∧
      ∀ e, decodeAll bytes = .error e ↔
        ∃ ms front rest, LaidOut ms front ∧ bytes = front ++ rest ∧ Damaged rest e := by
  refine ⟨fun ms => decodeAll_eq_ok_iff, fun ms ms' h h' => ?_, fun ms h => ?_,
    fun ms h hfits => ?_, fun e => decodeAll_eq_error_iff⟩
  · have hsame := h.decodeAll_eq
    rw [h'.decodeAll_eq] at hsame
    exact (Except.ok.inj hsame).symm
  · have hsent := Packet.fits_of_body h
    rw [Packet.body_of_fits hsent] at h
    rw [← Except.ok.inj h]
    exact decodeAll_layouts fun m hm => contentLength_le_of_fits (hsent m hm)
  · obtain ⟨-, hbytes⟩ := laidOut_iff.1 (decodeAll_eq_ok_iff.1 h)
    rw [hbytes]
    exact Packet.body_of_fits fun m hm => decide_eq_true (hfits m hm)

/-- The second message is damaged by its length, and nothing behind it is looked at. -/
example : Message.decodeAll [3, 0, 1, 0x81, 2, 9, 9, 200] = .error (.invalidLength 2) := by cbv

end RailBus
