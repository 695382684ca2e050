import RailBus.Proofs.Session

/-!
# What a link has said

A writer that is given nothing but messages has a transcript: the messages of each packet that was
offered, and those in the packet under construction. No packet of a valid size is too long for the
other end, which reads it as the messages that were put into it (`Transcript.read`). Whatever is
done with a session adds the messages that flow control transmits to the transcript, in order
(`transcribes_performAll`).
-/

namespace RailBus

/-- The messages can be sent, and be read back from one packet. -/
structure Packet.Legible (ms : List Message) : Prop where
  fits : ∀ m ∈ ms, m.fits = true
  held : (ms.flatMap Message.layout).length < maxPacketBody

namespace Packet

theorem legible_nil : Legible [] := ⟨by simp, by decide⟩

theorem legible_singleton {m : Message} (h : m.fits = true) : Legible [m] := by
  have hlength : m.contentLength ≤ maxMessageLength := of_decide_eq_true h
  refine ⟨by simpa using h, ?_⟩
  simp only [maxMessageLength] at hlength
  simp only [List.flatMap_singleton, Message.length_layout, maxPacketBody]
  omega

theorem Legible.outcome {ms : List Message} (h : Legible ms) :
    Assembler.outcome (ms.flatMap Message.layout) = .ok (ms.map Message.received) := by
  rw [Assembler.outcome, if_pos h.held]
  exact Message.decodeAll_layouts fun m hm => Message.contentLength_le_of_fits (h.fits m hm)

end Packet

/-- Packets of messages, of which all but the last were offered. -/
def Plan.ofMessages (offered : List (List Message)) (current : List Message) : Plan :=
  { past := offered.map fun ms => (.offered, ms.map Message.layout)
    current := current.map Message.layout }

namespace Plan

variable {limit : Nat} {offered : List (List Message)} {current : List Message}

theorem offered_ofMessages (offered : List (List Message)) (current : List Message) :
    (ofMessages offered current).offered = offered.map (List.map Message.layout) := by
  simp [Plan.offered, ofMessages, List.filter_map, Function.comp_def]

theorem finish_ofMessages (h : current ≠ []) :
    (ofMessages offered current).finish .offered = ofMessages (offered ++ [current]) [] := by
  simp [finish, ofMessages, h]

theorem step_ofMessages_of_full {m : Message}
    (h : (ofMessages offered current).isFullFor limit m.layout = true) :
    current ≠ [] ∧ (ofMessages offered current).step limit (.append m.layout) =
      ofMessages (offered ++ [current]) [m] := by
  have hne : current ≠ [] := by
    rintro rfl
    simp [isFullFor, ofMessages] at h
  refine ⟨hne, ?_⟩
  simp only [step, h, if_true, finish_ofMessages hne]
  simp [ofMessages]

theorem step_ofMessages_of_room {m : Message}
    (h : (ofMessages offered current).isFullFor limit m.layout = false) :
    (ofMessages offered current).step limit (.append m.layout) =
      ofMessages offered (current ++ [m]) := by
  simp only [step, h, Bool.false_eq_true, if_false]
  simp [ofMessages]

/-- A packet of a valid size with room for one more message is legible with it. -/
theorem legible_of_room {m : Message} (hlegible : Packet.Legible current) (hm : m.fits = true)
    (hlimit : limit ≤ maxPacketSize)
    (h : (ofMessages offered current).isFullFor limit m.layout = false) :
    Packet.Legible (current ++ [m]) := by
  by_cases hempty : current = []
  · rw [hempty]
    exact Packet.legible_singleton hm
  · have hroom : 1 + escapedLength (current.flatMap Message.layout) + escapedLength m.layout + 3 ≤
        limit := by
      simpa [isFullFor, ofMessages, hempty, List.flatMap_def] using h
    -- bytes only get more when they are stuffed, so what fits the packet is short
    have hcurrent := length_le_escapedLength (current.flatMap Message.layout)
    have hlast := length_le_escapedLength m.layout
    constructor
    · intro m' hm'
      rcases List.mem_append.1 hm' with hm' | hm'
      · exact hlegible.fits m' hm'
      · rwa [List.mem_singleton.1 hm']
    · simp only [maxPacketSize] at hlimit
      simp only [List.flatMap_append, List.flatMap_singleton, List.length_append, maxPacketBody]
      omega

end Plan

namespace PacketWriter

/-- The packets of `offered` were offered, to a sink that accepts as `outcome` says, and `current`
is in the packet under construction. -/
structure Transcript (limit : Nat) (outcome : Nat → Bool) (w : PacketWriter)
    (offered : List (List Message)) (current : List Message) : Prop where
  follows : w.Follows limit outcome (.ofMessages offered current)
  legible : ∀ ms ∈ offered, Packet.Legible ms
  legible_current : Packet.Legible current
  nonempty : [] ∉ offered

variable {limit : Nat} {outcome : Nat → Bool} {w w' w'' : PacketWriter}
  {offered : List (List Message)} {current ms ms' : List Message}

theorem transcript_fresh (limit : Nat) (outcome : Nat → Bool) :
    Transcript limit outcome (fresh limit outcome) [] [] :=
  ⟨follows_fresh limit outcome, by simp, Packet.legible_nil, by simp⟩

namespace Transcript

theorem attempts (h : Transcript limit outcome w offered current) :
    w.sink.attempts =
      offered.zipIdx.map fun x => (Packet.frame (x.1.flatMap Message.layout), outcome x.2) := by
  rw [h.follows.attempts, Plan.offered_ofMessages, List.zipIdx_map, List.map_map]
  simp only [Function.comp_def, Prod.map, id_eq, List.flatMap_def]

/-- The other end reads the packets that were offered as the messages that were put into them. -/
theorem read (h : Transcript limit outcome w offered current) :
    (({} : Assembler).pushAll (w.sink.attempts.flatMap (·.1))).2 =
      offered.map fun ms => .ok (ms.map Message.received) := by
  have hbytes : w.sink.attempts.map (·.1) =
      (offered.map (List.flatMap Message.layout)).map Packet.frame := by
    rw [h.attempts, List.map_map, List.map_map]
    conv_rhs => rw [← List.zipIdx_map_fst 0 offered, List.map_map]
    rfl
  rw [List.flatMap_def, hbytes, ← List.flatMap_def, Assembler.pushAll_frames, List.map_map]
  apply List.map_congr_left
  intro ms hms
  exact (h.legible ms hms).outcome

theorem messages (h : Transcript limit outcome w offered current) :
    w.messages = current.length := by
  rw [h.follows.messages, Plan.ofMessages, List.length_map]

theorem buffer (h : Transcript limit outcome w offered current) :
    w.buffer = if current = [] then [] else magic :: escape (current.flatMap Message.layout) := by
  rw [h.follows.buffer]
  simp [Plan.ofMessages, List.flatMap_def]

/-- The packet is closed, if there is a message in it. -/
theorem close (h : Transcript limit outcome w offered current) (hne : current ≠ []) :
    Transcript limit outcome w.flush (offered ++ [current]) [] := by
  have hfollows := h.follows.flush
  rw [Plan.finish_ofMessages hne] at hfollows
  refine ⟨hfollows, ?_, Packet.legible_nil, ?_⟩
  · intro ms hms
    rcases List.mem_append.1 hms with hms | hms
    · exact h.legible ms hms
    · rw [List.mem_singleton.1 hms]
      exact h.legible_current
  · rw [List.mem_append, List.mem_singleton, not_or]
    exact ⟨h.nonempty, Ne.symm hne⟩

theorem append {m : Message} (h : Transcript limit outcome w offered current)
    (hlimit : limit ≤ maxPacketSize) (hm : m.fits = true) :
    ∃ packets rest, Transcript limit outcome (w.append m.layout) (offered ++ packets) rest ∧
      packets.flatten ++ rest = current ++ [m] := by
  have hfollows := h.follows.append m.layout
  cases hfull : (Plan.ofMessages offered current).isFullFor limit m.layout with
  | true =>
    -- the packet is closed, and the message is the first of the next
    obtain ⟨hne, hstep⟩ := Plan.step_ofMessages_of_full hfull
    have hclosed := h.close hne
    rw [hstep] at hfollows
    exact ⟨[current], [m],
      ⟨hfollows, hclosed.legible, Packet.legible_singleton hm, hclosed.nonempty⟩, by simp⟩
  | false =>
    have hlegible := Plan.legible_of_room h.legible_current hm hlimit hfull
    rw [Plan.step_ofMessages_of_room hfull] at hfollows
    refine ⟨[], current ++ [m], ?_, by simp⟩
    rw [List.append_nil]
    exact ⟨hfollows, h.legible, hlegible, h.nonempty⟩

theorem flush (h : Transcript limit outcome w offered current) :
    ∃ packets, Transcript limit outcome w.flush (offered ++ packets) [] ∧
      packets.flatten = current := by
  by_cases hempty : current = []
  · have hmessages : w.messages = 0 := by rw [h.messages, hempty, List.length_nil]
    refine ⟨[], ?_, by rw [hempty, List.flatten_nil]⟩
    rw [flush_of_empty hmessages, List.append_nil, ← hempty]
    exact h
  · exact ⟨[current], h.close hempty, by simp⟩

end Transcript

/-- From `w` a writer comes to `w'` as the messages `ms` are added to its transcript. -/
def Transcribes (limit : Nat) (outcome : Nat → Bool) (w : PacketWriter) (ms : List Message)
    (w' : PacketWriter) : Prop :=
  ∀ offered current, Transcript limit outcome w offered current →
    ∃ packets rest, Transcript limit outcome w' (offered ++ packets) rest ∧
      packets.flatten ++ rest = current ++ ms

theorem transcribes_refl (limit : Nat) (outcome : Nat → Bool) (w : PacketWriter) :
    Transcribes limit outcome w [] w := by
  intro offered current h
  refine ⟨[], current, ?_, by simp⟩
  rwa [List.append_nil]

theorem Transcribes.trans (h : Transcribes limit outcome w ms w')
    (h' : Transcribes limit outcome w' ms' w'') :
    Transcribes limit outcome w (ms ++ ms') w'' := by
  intro offered current htranscript
  obtain ⟨packets, rest, hfirst, hms⟩ := h offered current htranscript
  obtain ⟨packets', rest', hsecond, hms'⟩ := h' _ rest hfirst
  refine ⟨packets ++ packets', rest', ?_, ?_⟩
  · rw [← List.append_assoc]
    exact hsecond
  · rw [List.flatten_append, List.append_assoc, hms', ← List.append_assoc, hms, List.append_assoc]

theorem transcribes_flush (limit : Nat) (outcome : Nat → Bool) (w : PacketWriter) :
    Transcribes limit outcome w [] w.flush := by
  intro offered current h
  obtain ⟨packets, hflush, hcurrent⟩ := h.flush
  exact ⟨packets, [], hflush, by simpa using hcurrent⟩

theorem transcribes_append {m : Message} (hlimit : limit ≤ maxPacketSize) (hm : m.fits = true)
    (outcome : Nat → Bool) (w : PacketWriter) :
    Transcribes limit outcome w [m] (w.append m.layout) := by
  intro offered current h
  exact h.append hlimit hm

theorem Appends.transcribes {bodies : List Bytes} (h : w.Appends bodies w')
    (hlimit : limit ≤ maxPacketSize) (outcome : Nat → Bool) (hms : ∀ m ∈ ms, m.fits = true)
    (hbodies : bodies = ms.map Message.layout) : Transcribes limit outcome w ms w' := by
  induction h generalizing ms with
  | refl =>
    rw [List.map_eq_nil_iff.1 hbodies.symm]
    exact transcribes_refl limit outcome w
  | append body _ ih =>
    obtain ⟨front, last, rfl, hfront, hlast⟩ := List.map_eq_append_iff.1 hbodies.symm
    obtain ⟨m, rfl, rfl⟩ := List.map_eq_singleton_iff.1 hlast
    have hstart := ih (fun m' hm' => hms m' (List.mem_append_left _ hm')) hfront.symm
    exact hstart.trans (transcribes_append hlimit (hms m (by simp)) outcome _)
  | flush _ ih =>
    have hflush := (ih hms hbodies).trans (transcribes_flush limit outcome _)
    rwa [List.append_nil] at hflush

end PacketWriter

theorem Link.Takes.transcribes {l l' : Link} {is : List Flow.Input} (h : l.Takes is l')
    {limit : Nat} (hlimit : limit ≤ maxPacketSize) (outcome : Nat → Bool) :
    l.writer.Transcribes limit outcome (l.flow.run is).2.appended l'.writer :=
  h.writer.transcribes hlimit outcome (fun _ hm => Flow.fits_of_mem_run hm) rfl

namespace Session

/-! ## What is said while a session is up -/

/-- What of an action reaches flow control. -/
def inputs (s : Session) : Action → List Flow.Input
  | .inject bs => (Packet.arrivals (s.receiver.assembler.pushAll bs).2).map .receive
  | .send a r => [.send a r]
  | .flush | .pollUplink | .pollError => []

/-- The messages that flow control transmits, be they sent or let go, as actions are taken. -/
def transmitted (s : Session) : List Action → List Message
  | [] => []
  | action :: rest =>
    (s.link.flow.run (s.inputs action)).2.appended ++ (s.perform action).transmitted rest

variable {limit : Nat}

theorem transcribes_perform (hlimit : limit ≤ maxPacketSize) (outcome : Nat → Bool) (s : Session)
    (action : Action) :
    s.link.writer.Transcribes limit outcome (s.link.flow.run (s.inputs action)).2.appended
      (s.perform action).link.writer := by
  cases action with
  | inject bs => exact (s.receiver.feed_takes bs).transcribes hlimit outcome
  | send a r => exact (s.link.send_takes a r).transcribes hlimit outcome
  | flush => exact PacketWriter.transcribes_flush limit outcome s.link.writer
  | pollUplink => exact PacketWriter.transcribes_refl limit outcome s.link.writer
  | pollError => exact PacketWriter.transcribes_refl limit outcome s.link.writer

theorem transcribes_performAll (hlimit : limit ≤ maxPacketSize) (outcome : Nat → Bool) (s : Session)
    (actions : List Action) :
    s.link.writer.Transcribes limit outcome (s.transmitted actions)
      (s.performAll actions).link.writer := by
  induction actions generalizing s with
  | nil => exact PacketWriter.transcribes_refl limit outcome s.link.writer
  | cons action rest ih =>
    exact (s.transcribes_perform hlimit outcome action).trans (ih (s.perform action))

theorem transmitted_append (s : Session) (actions actions' : List Action) :
    s.transmitted (actions ++ actions') =
      s.transmitted actions ++ (s.performAll actions).transmitted actions' := by
  induction actions generalizing s with
  | nil => rfl
  | cons action rest ih =>
    simp only [List.cons_append, transmitted, ih, List.append_assoc]
    rfl

/-- Flushes while a session hears make other packets of the same messages. -/
theorem Hears.transcribes {s s' : Session} {bs : Bytes} (h : s.Hears bs s')
    (hlimit : limit ≤ maxPacketSize) (outcome : Nat → Bool) :
    s.link.writer.Transcribes limit outcome (s.transmitted [.inject bs]) s'.link.writer := by
  rw [transmitted, transmitted, List.append_nil]
  exact h.takes.transcribes hlimit outcome

end Session
end RailBus
