import RailBus.Assembler
import RailBus.Proofs.Decoding
import RailBus.Proofs.Stuffing
import Mathlib.Algebra.GroupWithZero.Nat

/-!
# Assembling what was framed

Whatever the assembler has read, the opening delimiter of a packet brings it to one state
(`Between`), and from there the packet is read back as what was framed, or as an overflow if it is
too long to be held. Behind the packet the assembler is in that state again, so the next packet
needs no delimiter of its own to open it.
-/

namespace RailBus
namespace Assembler

theorem pushAll_cons (a : Assembler) (b : UInt8) (rest : Bytes) :
    a.pushAll (b :: rest) =
      (((a.push b).1.pushAll rest).1, (a.push b).2.toList ++ ((a.push b).1.pushAll rest).2) := rfl

theorem pushAll_append (a : Assembler) (bs bs' : Bytes) :
    a.pushAll (bs ++ bs') =
      (((a.pushAll bs).1.pushAll bs').1,
        (a.pushAll bs).2 ++ ((a.pushAll bs).1.pushAll bs').2) := by
  induction bs generalizing a with
  | nil => rfl
  | cons b rest ih => simp [pushAll_cons, ih]

/-! ## Inside a packet -/

/-- Bytes that are read as one byte are taken in as this byte. -/
theorem pushAll_standsFor {a : Assembler} {stuffed : Bytes} {b : UInt8}
    (hs : StandsFor stuffed b) (ha : a.phase = .inPacket)
    (h : magic ∉ stuffed) : a.pushAll stuffed = ((a.accept b).1, (a.accept b).2.toList) := by
  obtain ⟨phase, body, noise⟩ := a
  cases ha
  cases hs with
  | plain hmark =>
    have hmagic : b ≠ magic := by simpa [eq_comm] using h
    simp [pushAll, push, hmagic, hmark]
  | pair hmagic =>
    simp only [pushAll, push, escapeMark_ne_magic, hmagic, if_false, if_true, accept]
    split <;> rfl

/-- A stuffed byte is taken in as the byte it stands for. -/
theorem pushAll_escape_singleton {a : Assembler} (ha : a.phase = .inPacket) (b : UInt8) :
    a.pushAll (escape [b]) = ((a.accept b).1, (a.accept b).2.toList) :=
  pushAll_standsFor (standsFor_escape b) ha (magic_notMem_escape [b])

theorem accept_of_lt {a : Assembler} (h : a.body.length < maxPacketBody) (b : UInt8) :
    a.accept b = ({ a with phase := .inPacket, body := a.body ++ [b] }, none) := by
  rw [accept, if_neg (Nat.not_le.2 h)]

theorem accept_of_full {a : Assembler} (h : maxPacketBody ≤ a.body.length) (b : UInt8) :
    a.accept b = (a.reset, some (.error (.overflow maxPacketBody))) := by
  rw [accept, if_pos h]

theorem pushAll_escape {a : Assembler} (ha : a.phase = .inPacket) (bs : Bytes)
    (h : a.body.length + bs.length ≤ maxPacketBody) :
    a.pushAll (escape bs) = ({ a with body := a.body ++ bs }, []) := by
  induction bs generalizing a with
  | nil => simp [escape, pushAll]
  | cons b rest ih =>
    rw [List.length_cons] at h
    have hroom : a.body.length < maxPacketBody := by omega
    have hrest := ih (a := { a with phase := .inPacket, body := a.body ++ [b] }) rfl
      (by simp only [List.length_append, List.length_singleton]; omega)
    rw [escape_cons, pushAll_append, pushAll_escape_singleton ha, accept_of_lt hroom, hrest]
    simp [← ha]

/-- Outside of packets all but delimiters is noise. -/
theorem pushAll_noise {a : Assembler} {bs : Bytes} (ha : a.phase = .awaiting) (h : magic ∉ bs) :
    a.pushAll bs = ({ a with noise := a.noise + bs.length }, []) := by
  induction bs generalizing a with
  | nil => rfl
  | cons b rest ih =>
    rw [List.mem_cons, not_or] at h
    have hpush : a.push b = ({ a with noise := a.noise + 1 }, none) := by
      simp [push, ha, Ne.symm h.1]
    rw [pushAll_cons, hpush, ih (a := { a with noise := a.noise + 1 }) ha h.2]
    simp [Nat.add_assoc, Nat.add_comm 1]

/-- The byte that is one too many gives up the packet, and the rest of it is noise. -/
theorem pushAll_escape_overflow {a : Assembler} (ha : a.phase = .inPacket) (bs : Bytes)
    (hbody : a.body.length ≤ maxPacketBody) (h : maxPacketBody < a.body.length + bs.length) :
    ∃ noise, a.pushAll (escape bs) =
      ({ phase := .awaiting, body := [], noise := noise },
        [.error (.overflow maxPacketBody)]) := by
  induction bs generalizing a with
  | nil =>
    rw [List.length_nil] at h
    omega
  | cons b rest ih =>
    rw [List.length_cons] at h
    rw [escape_cons, pushAll_append, pushAll_escape_singleton ha]
    by_cases hroom : a.body.length < maxPacketBody
    · obtain ⟨noise, hrest⟩ := ih (a := { a with phase := .inPacket, body := a.body ++ [b] }) rfl
        (by simp only [List.length_append, List.length_singleton]; omega)
        (by simp only [List.length_append, List.length_singleton]; omega)
      rw [accept_of_lt hroom, hrest]
      exact ⟨noise, rfl⟩
    · rw [accept_of_full (Nat.not_lt.1 hroom), pushAll_noise rfl (magic_notMem_escape rest)]
      exact ⟨_, rfl⟩

/-! ## From delimiter to delimiter -/

/-- A delimiter has been read, and nothing after it. -/
structure Between (a : Assembler) : Prop where
  phase : a.phase = .inPacket
  body : a.body = []

theorem Between.isIdle {a : Assembler} (h : a.Between) : a.isIdle = true := by
  simp [Assembler.isIdle, h.phase, h.body]

/-- What the assembler can have come to by bytes and resets. -/
inductive Reached : Assembler → Prop
  | new : Reached {}
  | push {a : Assembler} (b : UInt8) : Reached a → Reached (a.push b).1
  | reset {a : Assembler} : Reached a → Reached a.reset

theorem body_of_accept {a : Assembler} {b : UInt8} (h : (a.accept b).1.phase = .awaiting) :
    (a.accept b).1.body = [] := by
  unfold accept at h ⊢
  split
  case isTrue => rfl
  case isFalse hroom =>
    rw [if_neg hroom] at h
    cases h

theorem body_of_push {a : Assembler} {b : UInt8} (ha : a.phase = .awaiting → a.body = [])
    (h : (a.push b).1.phase = .awaiting) : (a.push b).1.body = [] := by
  cases hphase : a.phase with
  | awaiting =>
    by_cases hb : b = magic
    · simp [push, hphase, hb, openPacket]
    · simpa [push, hphase, hb] using ha hphase
  | escaped =>
    by_cases hb : b = magic
    · simp [push, hphase, hb, openPacket]
    · simp only [push, hphase, hb, if_false] at h ⊢
      exact body_of_accept h
  | inPacket =>
    by_cases hb : b = magic
    · by_cases hempty : a.body = []
      · simp [push, hphase, hb, hempty] at h
      · simp [push, hphase, hb, hempty, openPacket]
    · by_cases hmark : b = escapeMark
      · simp [push, hphase, hmark, escapeMark_ne_magic] at h
      · simp only [push, hphase, hb, hmark, if_false] at h ⊢
        exact body_of_accept h

/-- Outside of packets nothing is kept. -/
theorem Reached.body_eq_nil {a : Assembler} (h : a.Reached) (ha : a.phase = .awaiting) :
    a.body = [] := by
  induction h with
  | new => rfl
  | push b h ih => exact body_of_push ih ha
  | reset => rfl

/-- A delimiter opens a packet, whatever was read before. It ends what was under way, if anything
was. -/
theorem push_magic_of_reached {a : Assembler} (h : a.Reached) :
    (a.push magic).1.Between ∧
      (a.push magic).2.toList.length = if a.isIdle then 0 else 1 := by
  cases hphase : a.phase with
  | awaiting =>
    have hbody := h.body_eq_nil hphase
    have hpush : a.push magic = (a.openPacket, none) := by simp [push, hphase]
    rw [hpush]
    exact ⟨⟨rfl, rfl⟩, by simp [isIdle, hphase, hbody]⟩
  | escaped =>
    have hpush : a.push magic = (a.openPacket, some (.error .badEscape)) := by
      simp [push, hphase]
    rw [hpush]
    exact ⟨⟨rfl, rfl⟩, by simp [isIdle, hphase]⟩
  | inPacket =>
    by_cases hempty : a.body = []
    · have hpush : a.push magic = (a, none) := by simp [push, hphase, hempty]
      rw [hpush]
      exact ⟨⟨hphase, hempty⟩, by simp [isIdle, hphase, hempty]⟩
    · have hpush : a.push magic = (a.openPacket, some (Packet.decodeBody a.body)) := by
        simp [push, hphase, hempty]
      rw [hpush]
      exact ⟨⟨rfl, rfl⟩, by simp [isIdle, hempty]⟩

/-- What a packet around `body` is read as. -/
def outcome (body : Bytes) : Packet.Result :=
  if body.length < maxPacketBody then Message.decodeAll body
  else .error (.overflow maxPacketBody)

theorem decodeBody_concat (body : Bytes) :
    Packet.decodeBody (body ++ [crc8 body]) = Message.decodeAll body := by
  simp [Packet.decodeBody]

theorem frame_eq (body : Bytes) :
    Packet.frame body = magic :: (escape (body ++ [crc8 body]) ++ [magic]) := by
  simp [Packet.frame, escape_append]

/-- The rest of a packet whose opening delimiter has been read. -/
theorem Between.pushAll_tail {a : Assembler} (h : a.Between) (body : Bytes) :
    (a.pushAll (Packet.frame body).tail).2 = [outcome body] ∧
      (a.pushAll (Packet.frame body).tail).1.Between := by
  have hlength : (body ++ [crc8 body]).length = body.length + 1 := by simp
  have hbody : a.body.length = 0 := by rw [h.body, List.length_nil]
  rw [frame_eq, List.tail_cons, pushAll_append, outcome]
  split
  case isTrue hfits =>
    have hheld := pushAll_escape h.phase (body ++ [crc8 body]) (by omega)
    rw [hheld]
    simp [pushAll, push, h.phase, h.body, openPacket, decodeBody_concat, Between.mk]
  case isFalse hlong =>
    obtain ⟨noise, hheld⟩ :=
      pushAll_escape_overflow h.phase (body ++ [crc8 body]) (by omega) (by omega)
    rw [hheld]
    simp [pushAll, push, openPacket, Between.mk]

theorem Between.pushAll_tails {a : Assembler} (h : a.Between) (bodies : List Bytes) :
    (a.pushAll ((bodies.map Packet.frame).flatMap List.tail)).2 = bodies.map outcome ∧
      (a.pushAll ((bodies.map Packet.frame).flatMap List.tail)).1.Between := by
  induction bodies generalizing a with
  | nil => exact ⟨rfl, h⟩
  | cons body rest ih =>
    obtain ⟨hfirst, hbetween⟩ := h.pushAll_tail body
    obtain ⟨hrest, hend⟩ := ih hbetween
    rw [List.map_cons, List.flatMap_cons, pushAll_append]
    refine ⟨?_, hend⟩
    rw [hfirst, hrest]
    rfl

/-- Where a packet is open a delimiter is no news. -/
theorem Between.push_magic_eq {a : Assembler} (h : a.Between) : a.push magic = (a, none) := by
  simp [push, h.phase, h.body]

theorem Between.pushAll_frames {a : Assembler} (h : a.Between) (bodies : List Bytes) :
    (a.pushAll (bodies.flatMap Packet.frame)).2 = bodies.map outcome := by
  induction bodies generalizing a with
  | nil => rfl
  | cons body rest ih =>
    obtain ⟨hfirst, hbetween⟩ := h.pushAll_tail body
    have hframe : Packet.frame body = magic :: (Packet.frame body).tail := by
      rw [frame_eq, List.tail_cons]
    rw [List.flatMap_cons, pushAll_append, hframe, pushAll_cons, h.push_magic_eq]
    show (a.pushAll (Packet.frame body).tail).2 ++ _ = _
    rw [hfirst, ih hbetween]
    rfl

/-- Whole packets are read one by one from the start. -/
theorem pushAll_frames (bodies : List Bytes) :
    (({} : Assembler).pushAll (bodies.flatMap Packet.frame)).2 = bodies.map outcome := by
  cases bodies with
  | nil => rfl
  | cons body rest =>
    -- the opening delimiter may as well be read twice
    have hopen : (({} : Assembler).push magic).1.Between := ⟨rfl, rfl⟩
    have hframes := hopen.pushAll_frames (body :: rest)
    rw [List.flatMap_cons, frame_eq, List.cons_append, pushAll_cons, hopen.push_magic_eq] at hframes
    rw [List.flatMap_cons, frame_eq, List.cons_append, pushAll_cons]
    exact hframes

end Assembler

/-! ## Messages in packets -/

namespace Packet

/-- The messages of a packet as the other end reads them, if it can hold the packet. -/
def readBack (ms : List Message) : Result :=
  if (ms.map fun m => 1 + m.contentLength).sum ≤ 511 then .ok (ms.map Message.received)
  else .error (.overflow 512)

theorem length_layouts (ms : List Message) :
    (ms.flatMap Message.layout).length = (ms.map fun m => 1 + m.contentLength).sum := by
  rw [List.length_flatMap]
  simp only [Message.length_layout]

theorem outcome_layouts {ms : List Message} (h : ∀ m ∈ ms, m.fits = true) :
    Assembler.outcome (ms.flatMap Message.layout) = readBack ms := by
  have hbyte : ∀ m ∈ ms, m.contentLength ≤ 255 :=
    fun m hm => Message.contentLength_le_of_fits (h m hm)
  rw [Assembler.outcome, readBack, length_layouts, Message.decodeAll_layouts hbyte]
  simp only [maxPacketBody, Nat.lt_succ_iff]

theorem encode_of_fits {ms : List Message} (h : ∀ m ∈ ms, m.fits = true) :
    encode ms = .ok (frame (ms.flatMap Message.layout)) := by
  rw [encode, body_of_fits h]
  rfl

theorem mapM_encode_of_fits {mss : List (List Message)}
    (h : ∀ ms ∈ mss, ∀ m ∈ ms, m.fits = true) :
    mss.mapM encode = .ok ((mss.map (List.flatMap Message.layout)).map frame) := by
  induction mss with
  | nil => rfl
  | cons ms rest ih =>
    have hms := encode_of_fits (h ms (by simp))
    have hrest := ih fun ms' h' => h ms' (List.mem_cons_of_mem _ h')
    rw [List.mapM_cons, hms, hrest]
    rfl

end Packet

/-- **A packet is read back from any state.** Whatever bytes and resets came before, a packet of
messages that can be encoded is read as these messages without their action ids, or as an overflow
if they take more than 511 bytes. Before it comes the end of what was under way, if anything was.
Behind it the assembler is idle in an empty packet, and packets that follow may share delimiters
with it. -/
theorem Assembler.pushAll_encode {a : Assembler} {ms : List Message} (ha : a.Reached)
    (hms : ∀ m ∈ ms, m.contentLength ≤ 127) :
    ∃ packet before,
      Packet.encode ms = .ok packet ∧
      (a.pushAll packet).2 = before ++ [Packet.readBack ms] ∧
      before.length = (if a.isIdle then 0 else 1) ∧
      (a.pushAll packet).1.isIdle = true ∧
      (a.pushAll packet).1.phase = .inPacket ∧ (a.pushAll packet).1.body = [] ∧
      ∀ mss : List (List Message), (∀ ms' ∈ mss, ∀ m ∈ ms', m.contentLength ≤ 127) →
        ∃ packets,
          mss.mapM Packet.encode = .ok packets ∧
          (a.pushAll (packet ++ packets.flatMap List.tail)).2 =
            before ++ Packet.readBack ms :: mss.map Packet.readBack := by
  have hfits : ∀ m ∈ ms, m.fits = true := fun m hm => decide_eq_true (hms m hm)
  obtain ⟨hopen, hcount⟩ := push_magic_of_reached ha
  obtain ⟨hread, hbetween⟩ := hopen.pushAll_tail (ms.flatMap Message.layout)
  have hframe : Packet.frame (ms.flatMap Message.layout) =
      magic :: (Packet.frame (ms.flatMap Message.layout)).tail := by
    rw [frame_eq, List.tail_cons]
  have hpush : a.pushAll (Packet.frame (ms.flatMap Message.layout)) =
      (((a.push magic).1.pushAll (Packet.frame (ms.flatMap Message.layout)).tail).1,
        (a.push magic).2.toList ++ [Packet.readBack ms]) := by
    rw [hframe, pushAll_cons, ← hframe, hread, Packet.outcome_layouts hfits]
  refine ⟨_, (a.push magic).2.toList, Packet.encode_of_fits hfits, ?_, hcount, ?_, ?_, ?_, ?_⟩
  · rw [hpush]
  · rw [hpush]
    exact hbetween.isIdle
  · rw [hpush]
    exact hbetween.phase
  · rw [hpush]
    exact hbetween.body
  · intro mss hmss
    have hmss' : ∀ ms' ∈ mss, ∀ m ∈ ms', m.fits = true :=
      fun ms' h m hm => decide_eq_true (hmss ms' h m hm)
    refine ⟨_, Packet.mapM_encode_of_fits hmss', ?_⟩
    obtain ⟨hmore, -⟩ := hbetween.pushAll_tails (mss.map (List.flatMap Message.layout))
    have houtcomes : (mss.map (List.flatMap Message.layout)).map outcome =
        mss.map Packet.readBack := by
      rw [List.map_map]
      exact List.map_congr_left fun ms' h => Packet.outcome_layouts (hmss' ms' h)
    rw [pushAll_append, hpush]
    simp only [hmore, houtcomes, List.append_assoc, List.singleton_append]

/-- A message whose payload has to be stuffed. -/
def Assembler.stuffedMessage : Message :=
  { address := .root, type := .sysMagic, payload := [magic, escapeMark] }

/-- A packet cut off behind an `escapeMark` is reported, and the one after it is read. -/
theorem Assembler.packet_after_cut_off :
    ∃ packet before,
      Packet.encode [stuffedMessage] = .ok packet ∧
      (((({} : Assembler).push magic).1.push escapeMark).1.pushAll packet).2 =
        before ++ [.ok [stuffedMessage]] ∧
      before.length = 1 ∧
      (((({} : Assembler).push magic).1.push escapeMark).1.pushAll packet).1.isIdle = true := by
  have hreached : ((({} : Assembler).push magic).1.push escapeMark).1.Reached :=
    .push escapeMark (.push magic .new)
  have hfits : ∀ m ∈ [stuffedMessage], m.contentLength ≤ 127 := by decide
  obtain ⟨packet, before, hencode, hread, hcount, hidle, -⟩ := pushAll_encode hreached hfits
  exact ⟨packet, before, hencode, hread, hcount, hidle⟩

end RailBus
