import RailBus.Proofs.Traffic

/-!
# A link after a reset

A link never looks back at what it has counted and at the packets it has offered
(`perform_withPast`), and a reset has it forget all else. So a link that was reset goes on as a new
one does on the same sink, and what it counts and offers from then on comes on top
(`reset_as_new`).
-/

namespace RailBus

/-- Counted one after the other. -/
instance : Add Stats where
  add s t :=
    { packetsWritten := s.packetsWritten + t.packetsWritten
      bytesWritten := s.bytesWritten + t.bytesWritten
      writeErrors := s.writeErrors + t.writeErrors
      messagesSent := s.messagesSent + t.messagesSent
      messagesQueued := s.messagesQueued + t.messagesQueued
      packetsReceived := s.packetsReceived + t.packetsReceived
      messagesReceived := s.messagesReceived + t.messagesReceived
      crcErrors := s.crcErrors + t.crcErrors
      framingErrors := s.framingErrors + t.framingErrors
      noiseBytes := s.noiseBytes + t.noiseBytes
      sequenceGaps := s.sequenceGaps + t.sequenceGaps }

/-- Nothing was counted. -/
def Stats.zero : Stats :=
  { packetsWritten := 0
    bytesWritten := 0
    writeErrors := 0
    messagesSent := 0
    messagesQueued := 0
    packetsReceived := 0
    messagesReceived := 0
    crcErrors := 0
    framingErrors := 0
    noiseBytes := 0
    sequenceGaps := 0 }

/-- What is kept of a link for good: what it has counted, and the packets its sink was offered. -/
structure Past where
  counted : Stats
  offered : List (Bytes × Bool)

/-! ## The past makes no difference -/

namespace PacketWriter

/-- The writer as it is if all this happened before. -/
def withPast (w : PacketWriter) (past : Past) : PacketWriter :=
  { w with
    sink := { w.sink with attempts := past.offered ++ w.sink.attempts }
    packetsWritten := past.counted.packetsWritten + w.packetsWritten
    bytesWritten := past.counted.bytesWritten + w.bytesWritten
    writeErrors := past.counted.writeErrors + w.writeErrors
    messagesSent := past.counted.messagesSent + w.messagesSent }

variable (w : PacketWriter) (past : Past)

theorem handOver_withPast (packet : Bytes) :
    (w.withPast past).handOver packet = (w.handOver packet).withPast past := by
  cases hok : w.sink.accepts 0 <;>
    simp [handOver, withPast, Sink.write, hok, Nat.add_assoc, List.append_assoc]

theorem flush_withPast : (w.withPast past).flush = w.flush.withPast past := by
  by_cases h : w.messages = 0
  · rw [flush_of_empty h, flush_of_empty (w := w.withPast past) h]
  · rw [flush_eq h, flush_eq (w := w.withPast past) h]
    exact congrArg discard (w.handOver_withPast past _)

theorem append_withPast (body : Bytes) :
    (w.withPast past).append body = (w.append body).withPast past := by
  have hfull : (w.withPast past).isFullFor (escapedLength body) =
      w.isFullFor (escapedLength body) := rfl
  simp only [append, hfull]
  split
  · rw [flush_withPast]
    rfl
  · rfl

theorem appendAll_withPast (bodies : List Bytes) :
    (w.withPast past).appendAll bodies = (w.appendAll bodies).withPast past := by
  induction bodies generalizing w with
  | nil => rfl
  | cons body rest ih =>
    show ((w.withPast past).append body).appendAll rest = _
    rw [append_withPast, ih]
    rfl

end PacketWriter

namespace Flow

def withPast (f : Flow) (past : Past) : Flow :=
  { f with
    messagesQueued := past.counted.messagesQueued + f.messagesQueued
    messagesReceived := past.counted.messagesReceived + f.messagesReceived
    sequenceGaps := past.counted.sequenceGaps + f.sequenceGaps }

variable (f : Flow) (past : Past)

theorem accept_withPast (a : Address) (r : Request) :
    (f.withPast past).accept a r = ((f.accept a r).1.withPast past, (f.accept a r).2) := by
  cases hadmitted : (f.table.reserve a r.consumesCredit).2 <;>
    simp [accept, withPast, hadmitted, Nat.add_assoc]

theorem send_withPast (a : Address) (r : Request) :
    (f.withPast past).send a r =
      (f.send a r).map fun (g, receipt, sent) => (g.withPast past, receipt, sent) := by
  have hfits : (f.withPast past).checkFits a r = f.checkFits a r := rfl
  cases hc : f.checkFits a r with
  | error e => rw [send_eq_error hc, send_eq_error (hfits.trans hc)]; rfl
  | ok u => rw [send_eq_ok_of_fits hc, send_eq_ok_of_fits (hfits.trans hc), accept_withPast]; rfl

theorem sendUnchecked_withPast (a : Address) (r : Request) :
    (f.withPast past).sendUnchecked a r =
      (f.sendUnchecked a r).map fun (g, seq, sent) => (g.withPast past, seq, sent) := by
  have hfits : (f.withPast past).checkFits a r = f.checkFits a r := rfl
  rw [sendUnchecked, sendUnchecked, hfits]
  cases f.checkFits a r <;> rfl

theorem observe_withPast (m : Message) :
    (f.withPast past).observe m = (f.observe m).withPast past := by
  simp only [observe, withPast, Nat.add_assoc]

theorem react_withPast (m : Message) :
    (f.withPast past).react m = ((f.react m).1.withPast past, (f.react m).2) := by
  unfold react
  split
  · unfold handleCapacity
    split <;> rfl
  · split
    · unfold handleNodeChange
      rw [send_withPast]
      cases f.send m.address (changeAck m) <;> rfl
    · rfl

theorem settle_withPast (m : Message) :
    (f.withPast past).settle m = ((f.settle m).1.withPast past, (f.settle m).2) := by
  unfold settle
  split <;> rfl

theorem deliver_withPast (m : Message) :
    (f.withPast past).deliver m = (f.deliver m).withPast past := by
  unfold deliver
  split <;> rfl

theorem receive_withPast (m : Message) :
    (f.withPast past).receive m = ((f.receive m).1.withPast past, (f.receive m).2) := by
  simp only [receive, observe_withPast]
  split
  · rfl
  · simp only [react_withPast, settle_withPast, deliver_withPast]

end Flow

namespace Link

def withPast (l : Link) (past : Past) : Link :=
  { l with
    flow := l.flow.withPast past
    writer := l.writer.withPast past
    packetsReceived := past.counted.packetsReceived + l.packetsReceived
    crcErrors := past.counted.crcErrors + l.crcErrors
    framingErrors := past.counted.framingErrors + l.framingErrors
    noiseBytes := past.counted.noiseBytes + l.noiseBytes }

variable (l : Link) (past : Past)

theorem pack_withPast (g : Flow) (sent : List Message) :
    (l.withPast past).pack (g.withPast past) sent = (l.pack g sent).withPast past := by
  have hwriter := l.writer.appendAll_withPast past (sent.map Message.layout)
  simp only [pack, withPast, hwriter]

theorem send_withPast (a : Address) (r : Request) :
    (l.withPast past).send a r = ((l.send a r).1.withPast past, (l.send a r).2) := by
  have hsend : (l.withPast past).flow.send a r = _ := l.flow.send_withPast past a r
  simp only [send, hsend]
  cases l.flow.send a r with
  | error e => rfl
  | ok x => simp only [Except.map, pack_withPast]

theorem sendUnchecked_withPast (a : Address) (r : Request) :
    (l.withPast past).sendUnchecked a r =
      ((l.sendUnchecked a r).1.withPast past, (l.sendUnchecked a r).2) := by
  have hsend : (l.withPast past).flow.sendUnchecked a r = _ :=
    l.flow.sendUnchecked_withPast past a r
  simp only [sendUnchecked, hsend]
  cases l.flow.sendUnchecked a r with
  | error e => rfl
  | ok x => simp only [Except.map, pack_withPast]

theorem flush_withPast : (l.withPast past).flush = l.flush.withPast past := by
  have hwriter := l.writer.flush_withPast past
  simp only [flush, withPast, hwriter]

theorem receive_withPast (m : Message) :
    (l.withPast past).receive m = (l.receive m).withPast past := by
  have hreceive : (l.withPast past).flow.receive m = _ := l.flow.receive_withPast past m
  simp only [receive, hreceive, pack_withPast]
  split
  · rw [flush_withPast]
  · rfl

theorem foldl_receive_withPast (ms : List Message) :
    ms.foldl receive (l.withPast past) = (ms.foldl receive l).withPast past := by
  induction ms generalizing l with
  | nil => rfl
  | cons m rest ih => rw [List.foldl_cons, receive_withPast, ih, List.foldl_cons]

theorem handlePacket_withPast (result : Packet.Result) :
    (l.withPast past).handlePacket result = (l.handlePacket result).withPast past := by
  cases result with
  | ok ms =>
    exact foldl_receive_withPast { l with packetsReceived := l.packetsReceived + 1 } past ms
  | error e => cases e <;> rfl

theorem handlePackets_withPast (results : List Packet.Result) :
    (l.withPast past).handlePackets results = (l.handlePackets results).withPast past := by
  induction results generalizing l with
  | nil => rfl
  | cons result rest ih =>
    show ((l.withPast past).handlePacket result).handlePackets rest = _
    rw [handlePacket_withPast, ih]
    rfl

end Link

/-! ## What is done with a link -/

/-- A way to read an inbox. -/
inductive Inbox.Reading
  | oldest
  | matching (p : Message → Bool)
  | all

/-- What is left in the inbox, and what is taken out of it. -/
def Inbox.read (b : Inbox) : Inbox.Reading → Inbox × List Message
  | .oldest => let (rest, m) := b.pop; (rest, m.toList)
  | .matching p => let (rest, m) := b.popMatching p; (rest, m.toList)
  | .all => b.drain

namespace Link

inductive Operation
  | send (a : Address) (r : Request)
  /-- a session ends: the interface is told to fall silent -/
  | disable
  | handle (result : Packet.Result)
  | flush
  | readUplink (how : Inbox.Reading)
  | readErrors (how : Inbox.Reading)
  | state (a : Address)
  | states
  | totalPending
  | reset

/-- What comes of an operation for the one who asked for it. -/
inductive Reply
  | done
  | receipt (result : Except LinkError Receipt)
  | number (result : Except LinkError UInt8)
  | messages (ms : List Message)
  | state (state : Option NodeState)
  | states (states : List NodeState)
  | count (n : Nat)

def perform (l : Link) : Operation → Link × Reply
  | .send a r => let (l, result) := l.send a r; (l, .receipt result)
  | .disable =>
    let (l, result) := l.sendUnchecked .root Session.disableRequest
    (l, .number result)
  | .handle result => (l.handlePacket result, .done)
  | .flush => (l.flush, .done)
  | .readUplink how =>
    let (inbox, ms) := l.flow.uplink.read how
    ({ l with flow := { l.flow with uplink := inbox } }, .messages ms)
  | .readErrors how =>
    let (inbox, ms) := l.flow.errors.read how
    ({ l with flow := { l.flow with errors := inbox } }, .messages ms)
  | .state a => (l, .state (l.flow.table.state? a))
  | .states => (l, .states l.flow.table.states)
  | .totalPending => (l, .count l.flow.table.totalPending)
  | .reset => (l.reset, .done)

def performAll (l : Link) : List Operation → Link × List Reply
  | [] => (l, [])
  | o :: rest =>
    let (l, reply) := l.perform o
    let (l, replies) := l.performAll rest
    (l, reply :: replies)

theorem perform_withPast (l : Link) (past : Past) (o : Operation) :
    (l.withPast past).perform o = ((l.perform o).1.withPast past, (l.perform o).2) := by
  cases o with
  | send a r => simp only [perform, send_withPast]
  | disable => simp only [perform, sendUnchecked_withPast]
  | handle result => simp only [perform, handlePacket_withPast]
  | flush => simp only [perform, flush_withPast]
  | readUplink how => rfl
  | readErrors how => rfl
  | state a => rfl
  | states => rfl
  | totalPending => rfl
  | reset => rfl

theorem performAll_withPast (l : Link) (past : Past) (os : List Operation) :
    (l.withPast past).performAll os = ((l.performAll os).1.withPast past, (l.performAll os).2) := by
  induction os generalizing l with
  | nil => rfl
  | cons o rest ih => simp only [performAll, perform_withPast, ih]

/-! ## What a reset leaves -/

/-- What of a link is fixed when it is made. -/
def settings (l : Link) : Config × (Nat × UInt8 × Bool) × Nat :=
  (l.config, l.flow.settings, l.writer.limit)

variable {l : Link}

theorem settings_of_takes {l' : Link} {is : List Flow.Input} (h : l.Takes is l')
    (hconfig : l'.config = l.config) : l'.settings = l.settings := by
  rw [settings, hconfig, h.flow, Flow.run_settings, h.writer.limit]
  rfl

theorem config_receive (l : Link) (m : Message) : (l.receive m).config = l.config := by
  simp only [receive]
  split <;> rfl

theorem config_foldl_receive (l : Link) (ms : List Message) :
    (ms.foldl receive l).config = l.config := by
  induction ms generalizing l with
  | nil => rfl
  | cons m rest ih => exact (ih (l.receive m)).trans (l.config_receive m)

theorem config_handlePacket (l : Link) (result : Packet.Result) :
    (l.handlePacket result).config = l.config := by
  cases result with
  | ok ms => exact config_foldl_receive { l with packetsReceived := l.packetsReceived + 1 } ms
  | error e => cases e <;> rfl

theorem config_handlePackets (l : Link) (results : List Packet.Result) :
    (l.handlePackets results).config = l.config := by
  induction results generalizing l with
  | nil => rfl
  | cons result rest ih => exact (ih (l.handlePacket result)).trans (l.config_handlePacket result)

theorem config_send (l : Link) (a : Address) (r : Request) : (l.send a r).1.config = l.config := by
  unfold send
  split <;> rfl

theorem config_sendUnchecked (l : Link) (a : Address) (r : Request) :
    (l.sendUnchecked a r).1.config = l.config := by
  unfold sendUnchecked
  split <;> rfl

theorem settings_perform (l : Link) (o : Operation) : (l.perform o).1.settings = l.settings := by
  cases o with
  | send a r => exact settings_of_takes (l.send_takes a r) (l.config_send a r)
  | disable => exact settings_of_takes l.sendUnchecked_takes (l.config_sendUnchecked _ _)
  | handle result =>
    exact settings_of_takes (l.carry_takes (.handle result)) (l.config_handlePacket result)
  | flush => exact settings_of_takes (l.carry_takes .flush) rfl
  | readUplink how => rfl
  | readErrors how => rfl
  | state a => rfl
  | states => rfl
  | totalPending => rfl
  | reset => rfl

theorem settings_performAll (l : Link) (os : List Operation) :
    (l.performAll os).1.settings = l.settings := by
  induction os generalizing l with
  | nil => rfl
  | cons o rest ih => exact (ih (l.perform o).1).trans (l.settings_perform o)

/-- What was counted and offered until now. -/
def past (l : Link) : Past := ⟨l.stats, l.writer.sink.attempts⟩

/-- A link that was reset is a new one with a past. -/
theorem reset_eq_withPast {config : Config} {sink : Sink}
    (h : l.settings = (new config sink).settings) :
    l.reset = (new config { accepts := l.writer.sink.accepts }).withPast l.past := by
  simp only [settings, Flow.settings, Prod.mk.injEq] at h
  obtain ⟨hconfig, ⟨hlimit, hcredit, hhonors⟩, hpacket⟩ := h
  simp [reset, Flow.reset, NodeTable.reset, PacketWriter.discard, withPast, past, stats, new,
    NodeTable.new, Flow.withPast, PacketWriter.withPast, hconfig, hlimit, hcredit, hhonors, hpacket]

/-- **A link that was reset goes on as a new one.** Whatever was done with a link before, a reset
offers nothing to the sink, and whatever is done after it comes out as with a new link of the same
configuration, on a sink that accepts what this one will: all replies, the nodes and the inboxes
that are left, the packet under construction, and the packets offered since. All counters move as
those of the new link do. -/
theorem reset_as_new (config : Config) (sink : Sink) (before after : List Operation) :
    let used := ((new config sink).performAll before).1
    let renewed := used.reset.performAll after
    let fresh := (new config { accepts := used.writer.sink.accepts }).performAll after
    used.reset.writer.sink = used.writer.sink ∧
      renewed.2 = fresh.2 ∧
      renewed.1.flow.table = fresh.1.flow.table ∧
      renewed.1.flow.uplink = fresh.1.flow.uplink ∧
      renewed.1.flow.errors = fresh.1.flow.errors ∧
      renewed.1.writer.buffer = fresh.1.writer.buffer ∧
      renewed.1.writer.messages = fresh.1.writer.messages ∧
      renewed.1.writer.sink.attempts = used.writer.sink.attempts ++ fresh.1.writer.sink.attempts ∧
      renewed.1.stats = used.stats + fresh.1.stats := by
  intro used renewed fresh
  have hreset : used.reset =
      (new config { accepts := used.writer.sink.accepts }).withPast used.past :=
    reset_eq_withPast (settings_performAll (new config sink) before)
  have hrun : renewed = (fresh.1.withPast used.past, fresh.2) := by
    show used.reset.performAll after = _
    rw [hreset, performAll_withPast]
  rw [hrun]
  exact ⟨rfl, rfl, rfl, rfl, rfl, rfl, rfl, rfl, rfl⟩

end Link
end RailBus
