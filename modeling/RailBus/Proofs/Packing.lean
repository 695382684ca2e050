import RailBus.Proofs.Assembler
import RailBus.Proofs.PacketWriter

/-!
# Packing

A packet writer stuffs each body as it comes and lets the checksum run along. A `Plan` only sorts
the bodies into packets. Whatever a writer is asked for, and whichever writes fail, the packets it
hands over are the planned ones, each framed as a whole (`attempts_eq_frames`).
-/

namespace RailBus

namespace PacketWriter

/-- What a writer is asked for. -/
inductive Call
  | append (body : Bytes)
  | flush
  | discard

def Call.body? : Call → Option Bytes
  | append body => some body
  | flush | discard => none

def perform (w : PacketWriter) : Call → PacketWriter
  | .append body => w.append body
  | .flush => w.flush
  | .discard => w.discard

def performAll (w : PacketWriter) (calls : List Call) : PacketWriter := calls.foldl perform w

end PacketWriter

/-- What becomes of a packet. A sink it is offered to may fail to write it. -/
inductive Fate
  | offered
  | discarded
  deriving DecidableEq

/-- Bodies sorted into packets. -/
structure Plan where
  /-- the packets that are done with, in order -/
  past : List (Fate × List Bytes) := []
  /-- the bodies in the packet under construction -/
  current : List Bytes := []

namespace Plan

/-- Is done with the packet under construction, if there is a body in it. -/
def finish (p : Plan) (fate : Fate) : Plan :=
  if p.current = [] then p else { past := p.past ++ [(fate, p.current)] }

/-- Whether a packet that holds any body would pass the limit with `body` in it. -/
def isFullFor (limit : Nat) (p : Plan) (body : Bytes) : Bool :=
  p.current ≠ [] && 1 + escapedLength p.current.flatten + escapedLength body + 3 > limit

def step (limit : Nat) (p : Plan) : PacketWriter.Call → Plan
  | .append body =>
    let p := if p.isFullFor limit body then p.finish .offered else p
    { p with current := p.current ++ [body] }
  | .flush => p.finish .offered
  | .discard => p.finish .discarded

def steps (limit : Nat) (p : Plan) (calls : List PacketWriter.Call) : Plan :=
  calls.foldl (step limit) p

/-- The packets that the sink is offered. -/
def offered (p : Plan) : List (List Bytes) := (p.past.filter (·.1 = .offered)).map (·.2)

/-- All bodies, by packet. -/
def bodies (p : Plan) : List Bytes := p.past.flatMap (·.2) ++ p.current

variable {limit : Nat} {p : Plan}

theorem bodies_finish (p : Plan) (fate : Fate) : (p.finish fate).bodies = p.bodies := by
  unfold finish
  split
  · rfl
  · simp [bodies]

theorem bodies_step (p : Plan) (call : PacketWriter.Call) :
    (p.step limit call).bodies = p.bodies ++ call.body?.toList := by
  cases call with
  | append body =>
    have hbodies : (if p.isFullFor limit body then p.finish .offered else p).bodies = p.bodies := by
      split
      · exact p.bodies_finish .offered
      · rfl
    rw [← hbodies]
    simp [step, bodies, PacketWriter.Call.body?]
  | flush => simpa [step, PacketWriter.Call.body?] using p.bodies_finish .offered
  | discard => simpa [step, PacketWriter.Call.body?] using p.bodies_finish .discarded

/-- No body is lost, doubled or moved. -/
theorem bodies_steps (p : Plan) (calls : List PacketWriter.Call) :
    (p.steps limit calls).bodies = p.bodies ++ calls.filterMap PacketWriter.Call.body? := by
  induction calls generalizing p with
  | nil => simp [steps]
  | cons call rest ih =>
    have hrest := ih (p.step limit call)
    rw [bodies_step] at hrest
    rw [List.filterMap_cons]
    cases hbody : call.body? <;> simpa [steps, hbody] using hrest

/-- From `p` to `p'` the packets `packets` are offered to the sink, none of them empty, and with
them and the packet under construction `bodies` are taken in. -/
structure Adds (p : Plan) (bodies : List Bytes) (packets : List (List Bytes)) (p' : Plan) :
    Prop where
  offered : p'.offered = p.offered ++ packets
  bodies : packets.flatten ++ p'.current = p.current ++ bodies
  nonempty : [] ∉ packets

theorem Adds.refl (p : Plan) : p.Adds [] [] p := ⟨by simp, by simp, by simp⟩

theorem Adds.trans {p' p'' : Plan} {bodies bodies' : List Bytes}
    {packets packets' : List (List Bytes)} (h : p.Adds bodies packets p')
    (h' : p'.Adds bodies' packets' p'') : p.Adds (bodies ++ bodies') (packets ++ packets') p'' := by
  constructor
  · rw [h'.offered, h.offered, List.append_assoc]
  · rw [List.flatten_append, List.append_assoc, h'.bodies, ← List.append_assoc, h.bodies,
      List.append_assoc]
  · rw [List.mem_append, not_or]
    exact ⟨h.nonempty, h'.nonempty⟩

theorem adds_finish (p : Plan) : ∃ packets, p.Adds [] packets (p.finish .offered) := by
  unfold finish
  split
  case isTrue => exact ⟨_, .refl p⟩
  case isFalse hne =>
    refine ⟨[p.current], ?_, ?_, ?_⟩
    · simp [Plan.offered]
    · simp
    · simpa using Ne.symm hne

theorem adds_append (limit : Nat) (p : Plan) (body : Bytes) :
    ∃ packets, p.Adds [body] packets (p.step limit (.append body)) := by
  have hopen : ∃ packets, p.Adds [] packets
      (if p.isFullFor limit body then p.finish .offered else p) := by
    split
    · exact p.adds_finish
    · exact ⟨_, .refl p⟩
  obtain ⟨packets, h⟩ := hopen
  refine ⟨packets, h.offered, ?_, h.nonempty⟩
  have hbodies := h.bodies
  rw [List.append_nil] at hbodies
  simp only [step]
  rw [← List.append_assoc, hbodies]

theorem adds_appends (limit : Nat) (p : Plan) (bodies : List Bytes) :
    ∃ packets, p.Adds bodies packets (p.steps limit (bodies.map .append)) := by
  induction bodies generalizing p with
  | nil => exact ⟨_, .refl p⟩
  | cons body rest ih =>
    obtain ⟨packets, h⟩ := p.adds_append limit body
    obtain ⟨packets', h'⟩ := ih (p.step limit (.append body))
    exact ⟨_, h.trans h'⟩

theorem current_finish (p : Plan) (fate : Fate) : (p.finish fate).current = [] := by
  unfold finish
  split
  case isTrue hempty => exact hempty
  case isFalse => rfl

end Plan

namespace PacketWriter

/-- The writer is as planned: it has offered the planned packets to a sink that accepts as
`outcome` says, and the packet under construction holds what it should. -/
structure Follows (limit : Nat) (outcome : Nat → Bool) (w : PacketWriter) (p : Plan) : Prop where
  limit : w.limit = limit
  messages : w.messages = p.current.length
  buffer : w.buffer = if p.current = [] then [] else magic :: escape p.current.flatten
  checksum : w.checksum = ⟨crc8 p.current.flatten⟩
  accepts : w.sink.accepts = fun n => outcome (p.offered.length + n)
  attempts : w.sink.attempts =
    p.offered.zipIdx.map fun x => (Packet.frame x.1.flatten, outcome x.2)
  written : w.packetsWritten = w.sink.attempts.countP (·.2)
  failed : w.writeErrors = w.sink.attempts.countP (!·.2)

variable {limit : Nat} {outcome : Nat → Bool} {w : PacketWriter} {p : Plan}

/-- A new writer on a sink that accepts as `outcome` says. -/
def fresh (limit : Nat) (outcome : Nat → Bool) : PacketWriter :=
  { limit := limit, sink := { accepts := outcome } }

theorem follows_fresh (limit : Nat) (outcome : Nat → Bool) :
    Follows limit outcome (fresh limit outcome) {} := by
  constructor <;> simp [fresh, crc8, Plan.offered]

theorem Follows.empty_iff (h : Follows limit outcome w p) : w.messages = 0 ↔ p.current = [] := by
  rw [h.messages, List.length_eq_zero_iff]

theorem Follows.discard (h : Follows limit outcome w p) :
    Follows limit outcome w.discard (p.finish .discarded) := by
  have hoffered : (p.finish .discarded).offered = p.offered := by
    unfold Plan.finish
    split <;> simp [Plan.offered]
  have hcurrent := p.current_finish .discarded
  constructor
  · exact h.limit
  · simp [PacketWriter.discard, hcurrent]
  · simp [PacketWriter.discard, hcurrent]
  · simp [PacketWriter.discard, hcurrent, crc8]
  · rw [hoffered]; exact h.accepts
  · rw [hoffered]; exact h.attempts
  · exact h.written
  · exact h.failed

/-- A packet that is closed is framed as if its bodies had come at once. -/
theorem Follows.frame_eq (h : Follows limit outcome w p) (hne : p.current ≠ []) :
    w.buffer ++ escape [w.checksum.register] ++ [magic] = Packet.frame p.current.flatten := by
  rw [h.buffer, if_neg hne, h.checksum]
  rfl

theorem Follows.flush (h : Follows limit outcome w p) :
    Follows limit outcome w.flush (p.finish .offered) := by
  by_cases hempty : p.current = []
  · rw [flush_of_empty (h.empty_iff.2 hempty), Plan.finish, if_pos hempty]
    exact h
  · rw [flush_eq (mt h.empty_iff.1 hempty), h.frame_eq hempty, Plan.finish, if_neg hempty]
    have hoffered : ({ past := p.past ++ [(.offered, p.current)] } : Plan).offered =
        p.offered ++ [p.current] := by
      simp [Plan.offered]
    have haccepts : w.sink.accepts 0 = outcome p.offered.length := by
      rw [h.accepts]
      rfl
    constructor
    · simp [PacketWriter.discard, h.limit]
    · rfl
    · rfl
    · rfl
    · simp [PacketWriter.discard, Sink.write, hoffered, h.accepts, Nat.add_assoc, Nat.add_comm 1]
    · simp [PacketWriter.discard, Sink.write, hoffered, h.attempts, haccepts, List.zipIdx_append]
    · cases hok : w.sink.accepts 0 <;> simp [PacketWriter.discard, Sink.write, h.written, hok]
    · cases hok : w.sink.accepts 0 <;> simp [PacketWriter.discard, Sink.write, h.failed, hok]

theorem Follows.append (h : Follows limit outcome w p) (body : Bytes) :
    Follows limit outcome (w.append body) (p.step limit (.append body)) := by
  have hfull : w.isFullFor (escapedLength body) = p.isFullFor limit body := by
    cases hempty : p.current with
    | nil => simp [isFullFor, Plan.isFullFor, h.messages, hempty]
    | cons first rest =>
      simp [isFullFor, Plan.isFullFor, h.messages, h.buffer, h.limit, hempty, length_escape,
        packetTrailerMax, Nat.add_comm]
  -- the packet that `body` goes into, after another one was closed or as it is
  have hopen : Follows limit outcome
      (if w.isFullFor (escapedLength body) then w.flush else w)
      (if p.isFullFor limit body then p.finish .offered else p) := by
    rw [hfull]
    split
    · exact h.flush
    · exact h
  generalize hw : (if w.isFullFor (escapedLength body) then w.flush else w) = w' at hopen
  generalize hp : (if p.isFullFor limit body then p.finish .offered else p) = p' at hopen
  simp only [PacketWriter.append, Plan.step, hw, hp]
  constructor
  · exact hopen.limit
  · simp [hopen.messages]
  · cases hempty : p'.current <;> simp [hopen.buffer, hempty, escape_append]
  · rw [hopen.checksum]
    simp [Checksum.update, crc8, List.foldl_append]
  · exact hopen.accepts
  · exact hopen.attempts
  · exact hopen.written
  · exact hopen.failed

theorem Follows.performAll (h : Follows limit outcome w p) (calls : List Call) :
    Follows limit outcome (w.performAll calls) (p.steps limit calls) := by
  induction calls generalizing w p with
  | nil => exact h
  | cons call rest ih =>
    cases call with
    | append body => exact ih (h.append body)
    | flush => exact ih h.flush
    | discard => exact ih h.discard

/-- Bodies that are appended before a flush are all in packets that the sink is offered, behind
those that were in the packet under construction. -/
theorem Follows.appendAll_flush (h : Follows limit outcome w p) (bodies : List Bytes) :
    ∃ packets : List (List Bytes), packets.flatten = p.current ++ bodies ∧ [] ∉ packets ∧
      (w.appendAll bodies).flush.sink.attempts = w.sink.attempts ++
        packets.zipIdx.map (fun x => (Packet.frame x.1.flatten, w.sink.accepts x.2)) ∧
      (w.appendAll bodies).flush.messages = 0 ∧ (w.appendAll bodies).flush.buffer = [] := by
  have hcalls : w.appendAll bodies = w.performAll (bodies.map .append) := by
    rw [PacketWriter.appendAll, PacketWriter.performAll, List.foldl_map]
    rfl
  obtain ⟨packets, happends⟩ := p.adds_appends limit bodies
  obtain ⟨last, hlast⟩ := (p.steps limit (bodies.map .append)).adds_finish
  have hadds := happends.trans hlast
  have hcurrent := (p.steps limit (bodies.map .append)).current_finish .offered
  have hfollows := (h.performAll (bodies.map .append)).flush
  rw [← hcalls] at hfollows
  refine ⟨packets ++ last, ?_, hadds.nonempty, ?_, ?_, ?_⟩
  · have hbodies := hadds.bodies
    rw [hcurrent, List.append_nil, List.append_nil] at hbodies
    exact hbodies
  · rw [hfollows.attempts, hadds.offered, List.zipIdx_append, List.map_append, ← h.attempts,
      List.zipIdx_eq_map_add, List.map_map, h.accepts]
    simp only [Nat.zero_add]
    rfl
  · rw [hfollows.messages, hcurrent]
    rfl
  · rw [hfollows.buffer, if_pos hcurrent]

/-- Messages that are encoded one by one make the body of their packet. -/
theorem body_of_mapM {ms : List Message} {bodies : List Bytes}
    (h : ms.mapM Message.encode = .ok bodies) : Packet.body ms = .ok bodies.flatten := by
  induction ms generalizing bodies with
  | nil =>
    cases h
    rfl
  | cons m rest ih =>
    rw [List.mapM_cons] at h
    cases hm : m.encode with
    | error e => simp [hm, bind, Except.bind] at h
    | ok bytes =>
      cases hrest : rest.mapM Message.encode with
      | error e => simp [hm, hrest, bind, Except.bind] at h
      | ok more =>
        simp only [hm, hrest, bind, Except.bind, pure, Except.pure, Except.ok.injEq] at h
        rw [Packet.body, hm, ih hrest, ← h]
        rfl

/-- **Packets written piece by piece are framed as a whole.** Whatever a new writer is asked for and
whichever writes fail, it offers the planned packets, each framed around its bodies, and holds the
bodies that are planned for the next. A failed write changes no other packet. All bodies are in
packets that were offered or discarded or in the one under construction, in order. -/
theorem attempts_eq_frames (limit : Nat) (outcome : Nat → Bool) (calls : List Call) :
    ((fresh limit outcome).performAll calls).sink.attempts =
        (Plan.steps limit {} calls).offered.zipIdx.map
          (fun x => (Packet.frame x.1.flatten, outcome x.2)) ∧
      (Plan.steps limit {} calls).past.flatMap (·.2) ++ (Plan.steps limit {} calls).current =
        calls.filterMap Call.body? ∧
      ((fresh limit outcome).performAll calls).messages =
        (Plan.steps limit {} calls).current.length ∧
      ((fresh limit outcome).performAll calls).buffer =
        (if (Plan.steps limit {} calls).current = [] then []
          else magic :: escape (Plan.steps limit {} calls).current.flatten) ∧
      ((fresh limit outcome).performAll calls).packetsWritten =
        ((fresh limit outcome).performAll calls).sink.written.length ∧
      ((fresh limit outcome).performAll calls).packetsWritten +
          ((fresh limit outcome).performAll calls).writeErrors =
        ((fresh limit outcome).performAll calls).sink.attempts.length ∧
      ∀ bodies ∈ (Plan.steps limit {} calls).offered, ∀ ms : List Message,
        ms.mapM Message.encode = .ok bodies →
          Packet.encode ms = .ok (Packet.frame bodies.flatten) := by
  have h := (follows_fresh limit outcome).performAll calls
  refine ⟨h.attempts, Plan.bodies_steps {} calls, h.messages, h.buffer, ?_, ?_, ?_⟩
  · rw [h.written, Sink.written, List.length_map, List.countP_eq_length_filter]
  · rw [h.written, h.failed, List.length_eq_countP_add_countP (·.2)]
    simp
  · intro bodies _ ms hms
    rw [Packet.encode, body_of_mapM hms]
    rfl

/-- The first packet is full and fails, the second is written. -/
example :
    ((fresh 6 (· ≠ 0)).performAll [.append [1, 2], .append [3], .flush]).sink.attempts =
      [(Packet.frame [1, 2], false), (Packet.frame [3], true)] := by
  cbv

end PacketWriter
end RailBus
