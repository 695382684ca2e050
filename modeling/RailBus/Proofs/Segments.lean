import RailBus.Proofs.Assembler
import Mathlib.Data.List.Infix

/-!
# A stream read at once

The assembler takes bytes one at a time. `readStream` cuts a stream at its delimiters first and
reads each segment as a whole, with `unescape` where the assembler goes through its phases. Both
find the same packets, the same damage and the same noise (`pushAll_eq_readStream`).
-/

namespace RailBus

namespace Segment

/-- Stuffed bytes that stand for more than `room` bytes. -/
def overfull (room : Nat) (stuffed : Bytes) : Bool :=
  match unescape stuffed with
  | .ok body => room < body.length
  | .error _ => false

/-- The shortest beginning of a segment that stands for more than `room` bytes; its last byte is
the one that is too many. -/
def overrun? (room : Nat) (segment : Bytes) : Option Bytes := segment.inits.find? (overfull room)

/-- What a segment gives. It holds a packet only if a delimiter closes it. -/
def results (closed : Bool) (segment : Bytes) : List Packet.Result :=
  if (overrun? maxPacketBody segment).isSome then [.error (.overflow maxPacketBody)]
  else if closed && !segment.isEmpty then
    match unescape segment with
    | .error _ => [.error .badEscape]
    | .ok body => [Packet.decodeBody body]
  else []

/-- How many bytes follow the one that is too many. -/
def noise (segment : Bytes) : Nat :=
  match overrun? maxPacketBody segment with
  | some front => segment.length - front.length
  | none => 0

/-- Segments in order. A delimiter closes each of them but the last. -/
def resultsAll : List Bytes → List Packet.Result
  | [] => []
  | [last] => results false last
  | segment :: rest => results true segment ++ resultsAll rest

end Segment

/-- What a stream holds, and how many of its bytes belong to no packet. All that precedes the first
delimiter is noise. -/
def readStream (bs : Bytes) : List Packet.Result × Nat :=
  match bs.splitOn magic with
  | [] => ([], 0)
  | before :: segments =>
    (Segment.resultsAll segments, before.length + (segments.map Segment.noise).sum)

namespace Segment

variable {stuffed segment : Bytes} {b : UInt8}

theorem overfull_nil (room : Nat) : overfull room [] = false := by simp [overfull]

theorem overfull_lone (room : Nat) : overfull room [escapeMark] = false := by simp [overfull]

theorem overrun?_nil (room : Nat) : overrun? room [] = none := by simp [overrun?, overfull_nil]

theorem overfull_append (h : StandsFor stuffed b) (room : Nat) (rest : Bytes) :
    overfull (room + 1) (stuffed ++ rest) = overfull room rest := by
  rw [overfull, overfull, h.unescape_append]
  cases unescape rest <;> simp [Except.map]

theorem find?_inits (h : StandsFor stuffed b) (room : Nat) :
    stuffed.inits.find? (overfull room) = if room = 0 then some stuffed else none := by
  have hself : overfull room stuffed = decide (room < 1) := by
    have hone := h.unescape_append []
    rw [List.append_nil] at hone
    simp [overfull, hone, Except.map]
  cases h <;> cases room <;> simp_all [overfull_nil, overfull_lone]

/-- With no room left a byte is one too many. -/
theorem overrun?_zero (h : StandsFor stuffed b) (rest : Bytes) :
    overrun? 0 (stuffed ++ rest) = some stuffed := by
  rw [overrun?, List.inits_append, List.find?_append, find?_inits h]
  rfl

theorem overrun?_succ (h : StandsFor stuffed b) (room : Nat) (rest : Bytes) :
    overrun? (room + 1) (stuffed ++ rest) = (overrun? room rest).map (stuffed ++ ·) := by
  have htail : overrun? room rest = rest.inits.tail.find? (overfull room) := by
    cases rest <;> simp [overrun?, overfull_nil]
  rw [overrun?, List.inits_append, List.find?_append, find?_inits h, List.find?_map, htail]
  simp only [Nat.succ_ne_zero, if_false, Option.none_or]
  congr 2
  funext front
  exact overfull_append h room front

theorem resultsAll_cons {segments : List Bytes} (h : segments ≠ []) :
    resultsAll (segment :: segments) = results true segment ++ resultsAll segments := by
  cases segments with
  | nil => exact absurd rfl h
  | cons => rfl

end Segment

namespace Assembler

variable {a : Assembler} {stuffed rest segment : Bytes} {b : UInt8}

/-! ## A segment, one byte at a time -/

/-- What becomes of the packet at hand by the bytes of a segment. -/
inductive Reads (a : Assembler) (segment : Bytes) : Prop
  /-- a byte is one too many, and those behind it are noise -/
  | overrun {front : Bytes}
      (hover : Segment.overrun? (maxPacketBody - a.body.length) segment = some front)
      (hread : a.pushAll segment =
        ({ phase := .awaiting, body := [], noise := a.noise + (segment.length - front.length) },
          [.error (.overflow maxPacketBody)]))
  /-- what they stand for is added to it -/
  | held {body : Bytes}
      (hover : Segment.overrun? (maxPacketBody - a.body.length) segment = none)
      (hunescape : unescape segment = .ok body)
      (hread : a.pushAll segment = ({ a with body := a.body ++ body }, []))
  /-- the last of them is an `escapeMark` and waits for one more -/
  | waiting {e : WireError}
      (hover : Segment.overrun? (maxPacketBody - a.body.length) segment = none)
      (hunescape : unescape segment = .error e)
      (hread : ∃ body, a.pushAll segment = ({ a with phase := .escaped, body := body }, []))

theorem Reads.append (hs : StandsFor stuffed b) (ha : a.phase = .inPacket)
    (hroom : a.body.length ≤ maxPacketBody) (hmagic : magic ∉ stuffed ++ rest)
    (h : a.body.length < maxPacketBody → Reads { a with body := a.body ++ [b] } rest) :
    a.Reads (stuffed ++ rest) := by
  rw [List.mem_append, not_or] at hmagic
  have hpush : a.pushAll (stuffed ++ rest) =
      (((a.accept b).1.pushAll rest).1,
        (a.accept b).2.toList ++ ((a.accept b).1.pushAll rest).2) := by
    rw [pushAll_append, pushAll_standsFor hs ha hmagic.1]
  by_cases hlt : a.body.length < maxPacketBody
  · have haccept : a.accept b = ({ a with body := a.body ++ [b] }, none) := by
      rw [accept_of_lt hlt, ← ha]
    rw [haccept] at hpush
    obtain ⟨room, hroom⟩ : ∃ room, maxPacketBody - a.body.length = room + 1 :=
      Nat.exists_eq_succ_of_ne_zero (by omega)
    have hless : maxPacketBody - (a.body ++ [b]).length = room := by
      rw [List.length_append, List.length_singleton]
      omega
    have hunescape' := hs.unescape_append rest
    have hover' := Segment.overrun?_succ hs room rest
    rw [← hroom] at hover'
    cases h hlt with
    | overrun hover hread =>
      rw [hless] at hover
      rw [hover] at hover'
      refine .overrun hover' ?_
      simp [hpush, hread, Nat.add_sub_add_left]
    | held hover hunescape hread =>
      rw [hless] at hover
      rw [hover] at hover'
      rw [hunescape] at hunescape'
      exact .held hover' hunescape' (by simp [hpush, hread])
    | waiting hover hunescape hread =>
      rw [hless] at hover
      rw [hover] at hover'
      rw [hunescape] at hunescape'
      obtain ⟨body, hread⟩ := hread
      exact .waiting hover' hunescape' ⟨body, by simp [hpush, hread]⟩
  · have hnone : maxPacketBody - a.body.length = 0 := by omega
    refine .overrun (by rw [hnone]; exact Segment.overrun?_zero hs rest) ?_
    rw [hpush, accept_of_full (Nat.not_lt.1 hlt), pushAll_noise rfl hmagic.2]
    simp [reset]

theorem reads_segment (ha : a.phase = .inPacket) (hroom : a.body.length ≤ maxPacketBody)
    (h : magic ∉ segment) : a.Reads segment := by
  induction segment using unstuffing_induction generalizing a with
  | nil => exact .held (Segment.overrun?_nil _) unescape_nil (by simp [pushAll])
  | lone =>
    refine .waiting ?_ unescape_lone ⟨a.body, ?_⟩
    · simp [Segment.overrun?, Segment.overfull_nil, Segment.overfull_lone]
    · simp [pushAll, push, ha, escapeMark_ne_magic]
  | damaged rest => simp at h
  | append stuffed b rest hs ih =>
    refine Reads.append hs ha hroom h fun hlt => ih ha ?_ ?_
    · simp only [List.length_append, List.length_singleton]
      omega
    · exact fun hmem => h (List.mem_append_right _ hmem)

/-! ## From delimiter to delimiter -/

theorem Between.reads (hb : a.Between) (h : magic ∉ segment) : a.Reads segment :=
  reads_segment hb.phase (by simp [hb.body]) h

theorem Between.room_eq (hb : a.Between) : maxPacketBody - a.body.length = maxPacketBody := by
  rw [hb.body, List.length_nil, Nat.sub_zero]

/-- A segment behind a delimiter, and the delimiter that closes it. -/
theorem Between.push_magic (hb : a.Between) (h : magic ∉ segment) :
    (a.pushAll segment).2 ++ ((a.pushAll segment).1.push magic).2.toList =
        Segment.results true segment ∧
      ((a.pushAll segment).1.push magic).1.Between ∧
      ((a.pushAll segment).1.push magic).1.noise = a.noise + Segment.noise segment := by
  cases hb.reads h with
  | overrun hover hread =>
    rw [hb.room_eq] at hover
    simp [hread, Segment.results, Segment.noise, hover, push, openPacket, Between.mk]
  | held hover hunescape hread =>
    rw [hb.room_eq] at hover
    by_cases hempty : segment = []
    · subst hempty
      simp [pushAll, Segment.results, Segment.noise, hover, push, hb.phase, hb.body, hb]
    · have hbody := ne_nil_of_unescape hunescape hempty
      simp [hread, Segment.results, Segment.noise, hover, hunescape, push, hb.phase, hb.body,
        openPacket, Between.mk, hempty, hbody]
  | waiting hover hunescape hread =>
    rw [hb.room_eq] at hover
    obtain ⟨body, hread⟩ := hread
    have hempty : segment ≠ [] := by
      rintro rfl
      simp at hunescape
    simp [hread, Segment.results, Segment.noise, hover, hunescape, push, openPacket, Between.mk,
      hempty]

/-- The last segment, which no delimiter closes. -/
theorem Between.pushAll_last (hb : a.Between) (h : magic ∉ segment) :
    (a.pushAll segment).2 = Segment.results false segment ∧
      (a.pushAll segment).1.noise = a.noise + Segment.noise segment := by
  cases hb.reads h with
  | overrun hover hread =>
    rw [hb.room_eq] at hover
    simp [hread, Segment.results, Segment.noise, hover]
  | held hover hunescape hread =>
    rw [hb.room_eq] at hover
    simp [hread, Segment.results, Segment.noise, hover]
  | waiting hover hunescape hread =>
    rw [hb.room_eq] at hover
    obtain ⟨body, hread⟩ := hread
    simp [hread, Segment.results, Segment.noise, hover]

/-- Streams from delimiter to delimiter. -/
theorem stream_induction {P : Bytes → Prop} (last : ∀ bs, magic ∉ bs → P bs)
    (delimited : ∀ segment rest, magic ∉ segment → P rest → P (segment ++ magic :: rest))
    (bs : Bytes) : P bs := by
  by_cases h : magic ∈ bs
  · obtain ⟨segment, rest, rfl, hsegment⟩ := List.eq_append_cons_of_mem h
    exact delimited segment rest hsegment (stream_induction last delimited rest)
  · exact last bs h
termination_by bs.length
decreasing_by
  subst bs
  simp only [List.length_append, List.length_cons]
  omega

theorem magic_notMem_of_mem_splitOn {bs : Bytes} (h : segment ∈ bs.splitOn magic) :
    magic ∉ segment := by
  induction bs using stream_induction with
  | last bs hbs =>
    rw [List.splitOn_eq_singleton hbs, List.mem_singleton] at h
    rwa [h]
  | delimited front rest hfront ih =>
    rw [List.splitOn_append_cons_self_of_not_mem hfront, List.mem_cons] at h
    rcases h with rfl | h
    · exact hfront
    · exact ih h

theorem Between.pushAll_stream (hb : a.Between) (bs : Bytes) :
    (a.pushAll bs).2 = Segment.resultsAll (bs.splitOn magic) ∧
      (a.pushAll bs).1.noise = a.noise + ((bs.splitOn magic).map Segment.noise).sum := by
  induction bs using stream_induction generalizing a with
  | last bs hbs =>
    rw [List.splitOn_eq_singleton hbs]
    simpa [Segment.resultsAll] using hb.pushAll_last hbs
  | delimited segment rest hsegment ih =>
    obtain ⟨hresults, hbetween, hnoise⟩ := hb.push_magic hsegment
    obtain ⟨hrest, hrestnoise⟩ := ih hbetween
    rw [List.splitOn_append_cons_self_of_not_mem hsegment,
      Segment.resultsAll_cons (List.splitOn_ne_nil magic rest), pushAll_append, pushAll_cons]
    constructor
    · rw [← hresults, ← hrest, List.append_assoc]
    · rw [List.map_cons, List.sum_cons, ← Nat.add_assoc, ← hnoise]
      exact hrestnoise

/-- Before the first delimiter all is noise; behind it segments follow. -/
theorem pushAll_new (bs : Bytes) :
    ((({} : Assembler).pushAll bs).2, (({} : Assembler).pushAll bs).1.noise) = readStream bs := by
  cases bs using stream_induction with
  | last bs hbs =>
    rw [readStream, List.splitOn_eq_singleton hbs, pushAll_noise rfl hbs]
    simp [Segment.resultsAll]
  | delimited before rest hbefore _ =>
    have hopen : (openPacket { noise := before.length }).Between := ⟨rfl, rfl⟩
    obtain ⟨hresults, hnoise⟩ := hopen.pushAll_stream rest
    have hpush : ({} : Assembler).pushAll (before ++ magic :: rest) =
        (openPacket { noise := before.length }).pushAll rest := by
      rw [pushAll_append, pushAll_noise rfl hbefore, pushAll_cons]
      simp [push]
    rw [readStream, List.splitOn_append_cons_self_of_not_mem hbefore, hpush, hresults, hnoise]
    rfl

/-! ## What is kept -/

theorem body_accept_le (a : Assembler) (b : UInt8) :
    (a.accept b).1.body.length ≤ maxPacketBody := by
  unfold accept
  split
  case isTrue => exact Nat.zero_le _
  case isFalse hroom =>
    rw [List.length_append, List.length_singleton]
    omega

theorem body_push_le (h : a.body.length ≤ maxPacketBody) (b : UInt8) :
    (a.push b).1.body.length ≤ maxPacketBody := by
  unfold push
  split
  case h_1 =>
    split
    · exact Nat.zero_le _
    · exact h
  case h_2 =>
    split
    · exact Nat.zero_le _
    · exact body_accept_le a _
  case h_3 =>
    split
    · split
      · exact h
      · exact Nat.zero_le _
    · split
      · exact h
      · exact body_accept_le a b

theorem body_pushAll_le (h : a.body.length ≤ maxPacketBody) (bs : Bytes) :
    (a.pushAll bs).1.body.length ≤ maxPacketBody := by
  induction bs generalizing a with
  | nil => exact h
  | cons b rest ih => exact ih (body_push_le h b)

/-! ## What is reported -/

/-- What can be reported of a packet: a pair that cannot be read, a byte too many, or what its bytes
are decoded to. -/
inductive Reported : Packet.Result → Prop
  | badEscape : Reported (.error .badEscape)
  | overflow : Reported (.error (.overflow maxPacketBody))
  | decoded {body : Bytes} : body ≠ [] → body.length ≤ maxPacketBody →
      Reported (Packet.decodeBody body)

theorem reported_accept {result : Packet.Result} (h : (a.accept b).2 = some result) :
    Reported result := by
  unfold accept at h
  split at h
  · cases h
    exact .overflow
  · cases h

theorem reported_push (hroom : a.body.length ≤ maxPacketBody) {result : Packet.Result}
    (h : (a.push b).2 = some result) : Reported result := by
  cases hphase : a.phase with
  | awaiting =>
    by_cases hb : b = magic <;> simp [push, hphase, hb] at h
  | escaped =>
    by_cases hb : b = magic
    · simp only [push, hphase, hb, if_true, Option.some.injEq] at h
      subst h
      exact .badEscape
    · simp only [push, hphase, hb, if_false] at h
      exact reported_accept h
  | inPacket =>
    by_cases hb : b = magic
    · by_cases hempty : a.body = []
      · simp [push, hphase, hb, hempty] at h
      · have hclosed : (a.push b).2 = some (Packet.decodeBody a.body) := by
          simp [push, hphase, hb, hempty]
        rw [hclosed] at h
        cases h
        exact .decoded hempty hroom
    · by_cases hmark : b = escapeMark
      · simp [push, hphase, hmark, escapeMark_ne_magic] at h
      · simp only [push, hphase, hb, hmark, if_false] at h
        exact reported_accept h

theorem reported_of_mem_pushAll {bs : Bytes} (hroom : a.body.length ≤ maxPacketBody)
    {result : Packet.Result} (h : result ∈ (a.pushAll bs).2) : Reported result := by
  induction bs generalizing a with
  | nil => cases h
  | cons b rest ih =>
    rw [pushAll_cons, List.mem_append, Option.mem_toList] at h
    rcases h with h | h
    · exact reported_push hroom h
    · exact ih (body_push_le hroom b) h

end Assembler

/-- **A stream read byte by byte is read as if cut at its delimiters.** A new assembler finds in any
stream what `readStream` finds in its segments, and counts the same noise. It never holds more than
512 bytes. That a segment cannot be unstuffed means that it ends in an `escapeMark` with nothing to
flip. -/
theorem Assembler.pushAll_eq_readStream (bs : Bytes) :
    ((({} : Assembler).pushAll bs).2, (({} : Assembler).pushAll bs).1.noise) = readStream bs ∧
      (({} : Assembler).pushAll bs).1.body.length ≤ 512 ∧
      ∀ segment ∈ bs.splitOn magic,
        ((∃ e, unescape segment = .error e) ↔
          ∃ front body, segment = front ++ [escapeMark] ∧ unescape front = .ok body) := by
  refine ⟨pushAll_new bs, body_pushAll_le (Nat.zero_le _) bs, fun segment hmem => ?_⟩
  exact unescape_eq_error_iff (magic_notMem_of_mem_splitOn hmem)

/-- Noise, an empty segment, one that ends too early and one that nothing closes. -/
example :
    readStream [0x01, magic, magic, escapeMark, magic, 0x02] = ([.error .badEscape], 1) := by
  decide

end RailBus
