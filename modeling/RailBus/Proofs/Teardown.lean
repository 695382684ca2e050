import RailBus.Proofs.Handshake
import RailBus.Proofs.Transcript

/-!
# How a session is taken down

What stopping a session hands to the sink does not depend on flow control: the messages in the
packet under construction leave, and behind them the one that has the interface fall silent, in one
packet or in two. No stall and no lack of credit holds it back, and nothing that waits leaves with
it (`stop_hands_over`).
-/

namespace RailBus

namespace PacketWriter

/-- The first message of a new writer is in a packet of its own if it is flushed. -/
theorem transcript_single {m : Message} (hm : m.fits = true) (limit : Nat) (outcome : Nat → Bool) :
    Transcript limit outcome ((fresh limit outcome).append m.layout).flush [[m]] [] := by
  have hfollows := (follows_fresh limit outcome).append m.layout
  have hroom : (Plan.ofMessages [] []).isFullFor limit m.layout = false := rfl
  have hstep : Plan.step limit {} (.append m.layout) = .ofMessages [] [m] :=
    Plan.step_ofMessages_of_room hroom
  rw [hstep] at hfollows
  have htranscript : Transcript limit outcome ((fresh limit outcome).append m.layout) [] [m] :=
    ⟨hfollows, by simp, Packet.legible_singleton hm, by simp⟩
  exact htranscript.close (by simp)

end PacketWriter

namespace Session

variable {config : Config} {deliveries : List Delivery} {outcome : Nat → Bool} {s : Session}

theorem limit_le_of_validate (h : config.validate = .ok ()) :
    config.link.maxPacketSize ≤ maxPacketSize := by
  unfold Config.validate at h
  split at h
  case isTrue => cases h
  case isFalse hrange => exact Nat.not_lt.1 (not_or.1 hrange).2

/-! ## A start as actions -/

/-- What a start does with a session but for taking out the answer, and for flushes while it hears
what the line delivers. -/
def opening (config : Config) (inbound : Bytes) : List Action :=
  if config.session.handshake then [.send .root magicRequest, .flush, .inject inbound]
  else [.inject inbound]

theorem writer_conclude (s : Session) : s.conclude.1.link.writer = s.link.writer := by
  unfold conclude
  split <;> rfl

/-- What a start says does not depend on the flushes, only the packets do. -/
theorem transcribes_entered (h : config.validate = .ok ()) (hlimit : 9 ≤ config.link.maxPacketSize)
    (outcome : Nat → Bool) (deliveries : List Delivery) :
    (opened config { accepts := outcome }).link.writer.Transcribes config.link.maxPacketSize outcome
      ((opened config { accepts := outcome }).transmitted
        (opening config (Delivery.allBytes deliveries)))
      (entered config { accepts := outcome } deliveries).link.writer := by
  have hpacket := limit_le_of_validate h
  unfold entered opening
  split
  · obtain ⟨⟨receipt, hreceipt⟩, -⟩ := send_magic config outcome hlimit
    have hasked := (opened config { accepts := outcome }).transcribes_performAll hpacket outcome
      [.send .root magicRequest, .flush]
    have hheard := (((opened config { accepts := outcome }).performAll
      [.send .root magicRequest, .flush]).hears_hearAll deliveries).transcribes hpacket outcome
    have hsplit : [Action.send .root magicRequest, .flush, .inject (Delivery.allBytes deliveries)] =
        [.send .root magicRequest, .flush] ++ [.inject (Delivery.allBytes deliveries)] := rfl
    rw [handshake_eq_conclude hreceipt, writer_conclude, hsplit, transmitted_append]
    exact hasked.trans hheard
  · exact ((opened config { accepts := outcome }).hears_hearAll deliveries).transcribes hpacket
      outcome

/-! ## Stopping -/

/-- The link `l` becomes `l'` as a session is taken down. It had offered the packets of `offered`
and had `buffered` in the packet under construction; it offers those of `last` and forgets all
else. -/
structure TakenDown (outcome : Nat → Bool) (l l' : Link) (offered : List (List Message))
    (buffered : List Message) (last : List (List Message)) : Prop where
  before : l.writer.sink.attempts =
    offered.zipIdx.map fun x => (Packet.frame (x.1.flatMap Message.layout), outcome x.2)
  messages : l.writer.messages = buffered.length
  buffer : l.writer.buffer =
    if buffered = [] then [] else magic :: escape (buffered.flatMap Message.layout)
  /-- what was buffered leaves and then the last message, under the next number of the interface -/
  handedOver : last.flatten =
    buffered ++ [disableRequest.toMessage .root (nextSeq (l.flow.table.node .root).lastSeq)]
  nonempty : [] ∉ last
  attempts : l'.writer.sink.attempts = l.writer.sink.attempts ++ (last.zipIdx offered.length).map
    fun x => (Packet.frame (x.1.flatMap Message.layout), outcome x.2)
  /-- the other end reads the packets as what was put into them -/
  read : (({} : Assembler).pushAll (l'.writer.sink.attempts.flatMap (·.1))).2 =
    (offered ++ last).map fun ms => .ok (ms.map Message.received)
  nodes : l'.flow.table.nodes = {}
  uplink : l'.flow.uplink = {}
  errors : l'.flow.errors = {}
  empty : l'.writer.messages = 0 ∧ l'.writer.buffer = []

theorem takenDown_stop {limit : Nat} {offered : List (List Message)} {buffered : List Message}
    (hrunning : s.running = true) (hleast : 9 ≤ s.link.flow.limit) (hlimit : limit ≤ maxPacketSize)
    (h : s.link.writer.Transcript limit outcome offered buffered) :
    ∃ last, TakenDown outcome s.link s.stop.link offered buffered last := by
  have hfits := fits_control (.inr rfl) (nextSeq (s.link.flow.table.node .root).lastSeq)
  -- appending may close the packet, and the flush closes the one that the message is in
  obtain ⟨packets, rest, happend, hsplit⟩ := h.append hlimit hfits
  obtain ⟨packets', hflush, hrest⟩ := happend.flush
  rw [List.append_assoc] at hflush
  have hstop := link_stop hrunning hleast
  have hattempts := congrArg (·.writer.sink.attempts) hstop
  refine ⟨packets ++ packets', ?_⟩
  constructor
  · exact h.attempts
  · exact h.messages
  · exact h.buffer
  · rw [List.flatten_append, hrest, hsplit]
  · intro hmem
    exact hflush.nonempty (List.mem_append_right _ hmem)
  · refine hattempts.trans (hflush.attempts.trans ?_)
    rw [h.attempts, List.zipIdx_append, List.map_append, Nat.zero_add]
  · refine Eq.trans ?_ hflush.read
    exact congrArg (fun attempts : List (Bytes × Bool) =>
      (({} : Assembler).pushAll (attempts.flatMap (·.1))).2) hattempts
  all_goals rw [hstop]
  · rfl
  · rfl
  · rfl
  · exact ⟨rfl, rfl⟩

theorem running_stop (s : Session) : s.stop.running = false := by
  unfold stop
  split
  case isTrue => rfl
  case isFalse h => exact eq_false_of_ne_true h

/-- A session is taken down once. -/
theorem stop_stop (s : Session) : s.stop.stop = s.stop := by
  rw [stop, s.running_stop]
  rfl

/-- **Stopping a session hands over all that is buffered, and one message more.** Whatever is done
with a session that has started, wherever the flush interval ran out while it did, and whichever
writes fail, stopping it offers packets of just the messages in the packet under construction and
then the one that has the interface fall silent, under its next number, also while the interface is
stalled, out of credit or has messages that wait. What waits for any node is in no packet: all that
flow control has transmitted since the link was made is in the packets, in order, and nothing else
but that last message. Then the node table, the inboxes and the packet are empty. Stopping again does
nothing. -/
theorem stop_hands_over (hs : start config { accepts := outcome } deliveries = .ok s)
    (hlimit : 9 ≤ config.link.maxPacketSize) (actions : List Action) :
    ∃ offered buffered last,
      offered.flatten ++ buffered =
        (opened config { accepts := outcome }).transmitted
            (opening config (Delivery.allBytes deliveries)) ++ s.transmitted actions ∧
      TakenDown outcome (s.performAll actions).link (s.performAll actions).stop.link
        offered buffered last ∧
      (s.performAll actions).stop.running = false ∧
      (s.performAll actions).stop.stop = (s.performAll actions).stop := by
  obtain ⟨hvalid, rfl⟩ := eq_entered_of_start hs
  obtain ⟨hproceeds, hrunning⟩ :=
    proceeds_entered outcome config { accepts := outcome } deliveries
  obtain ⟨hactions, hstill⟩ :=
    (entered config { accepts := outcome } deliveries).proceeds_performAll outcome actions
  have hsaid := (transcribes_entered hvalid hlimit outcome deliveries).trans
    ((entered config { accepts := outcome } deliveries).transcribes_performAll
      (limit_le_of_validate hvalid) outcome actions)
  have hfresh := PacketWriter.transcript_fresh config.link.maxPacketSize outcome
  obtain ⟨packets, rest, htranscript, hrest⟩ := hsaid [] [] hfresh
  have hleast : 9 ≤ ((entered config { accepts := outcome } deliveries).performAll
      actions).link.flow.limit := by
    rw [(hproceeds.trans hactions).limit]
    exact hlimit
  obtain ⟨last, hlast⟩ := takenDown_stop (hstill.trans hrunning) hleast
    (limit_le_of_validate hvalid) htranscript
  exact ⟨packets, rest, last, hrest, hlast, running_stop _, stop_stop _⟩

/-- Packets of twelve bytes, and no handshake. -/
def twelveBytes : Config := { link := { maxPacketSize := 12 }, session := { handshake := false } }

/-- The interface stops itself between two commands, so that the second has to wait. -/
def stalledBetweenCommands : List Action :=
  [.send Link.child Link.command,
    .inject (Packet.frame { address := .root, type := .stall, payload := [1] : Message }.layout),
    .send Link.child Link.command]

/-- The interface is told to fall silent in a packet behind that of the first command, and the
second command is gone. -/
theorem stalled_interface_silenced :
    ∃ s offered buffered last, start twelveBytes { accepts := fun _ => true } [] = .ok s ∧
      (s.performAll stalledBetweenCommands).link.flow.table.isStalled .root = true ∧
      (s.performAll stalledBetweenCommands).link.flow.table.pendingCount Link.child = 1 ∧
      (s.performAll stalledBetweenCommands).link.writer.messages = 1 ∧
      (s.performAll stalledBetweenCommands).stop.link.writer.sink.attempts.length = 2 ∧
      TakenDown (fun _ => true) (s.performAll stalledBetweenCommands).link
        (s.performAll stalledBetweenCommands).stop.link offered buffered last := by
  have hs : start twelveBytes { accepts := fun _ => true } [] =
      .ok (opened twelveBytes { accepts := fun _ => true }) := rfl
  obtain ⟨offered, buffered, last, -, htaken, -, -⟩ :=
    stop_hands_over hs (by decide) stalledBetweenCommands
  refine ⟨_, offered, buffered, last, hs, ?_, ?_, ?_, ?_, htaken⟩
  all_goals decide +kernel

end Session
end RailBus
