import RailBus.Proofs.PacketSize
import RailBus.Proofs.Reception

/-!
# A link while its session is up

Whatever is done with a session, the packets that its link has offered stay offered, and the packet
under construction holds messages that can be encoded (`proceeds_performAll`). So the request that
begins a session and the message that ends it come last in the packet that is flushed after them, if
the link takes them at all (`asks_of_orderly`, `endsWith_stop`).
-/

namespace RailBus

/-! ## What is transmitted can be encoded -/

namespace Node

theorem fits_of_mem_transmitAll {n : Node} {a : Address} {rs : List Request} {m : Message}
    (h : m ∈ (n.transmitAll a rs).2) : m.fits = true := by
  induction rs generalizing n with
  | nil => cases h
  | cons r rest ih =>
    simp only [transmitAll, List.mem_append] at h
    rcases h with h | h
    · simp only [transmit] at h
      split at h
      case isTrue hfits => rwa [List.mem_singleton.1 h]
      case isFalse => cases h
    · exact ih h

theorem fits_of_mem_meetAll {n : Node} {a : Address} {os : List Occurrence} {m : Message}
    (h : m ∈ (n.meetAll a os).2) : m.fits = true := by
  induction os generalizing n with
  | nil => cases h
  | cons o rest ih =>
    rw [meetAll_cons, List.mem_append] at h
    rcases h with h | h
    · exact fits_of_mem_transmitAll h
    · exact ih h

end Node

namespace Flow

theorem fits_of_mem_step {f : Flow} {i : Input} {m : Message} (h : m ∈ (f.step i).2) :
    m.fits = true := by
  have hsent : m ∈ sentTo m.address (f.step i).2 := List.mem_filter.2 ⟨h, by simp⟩
  rw [(f.step_actsAs i m.address).2] at hsent
  exact Node.fits_of_mem_meetAll hsent

theorem fits_of_mem_run {f : Flow} {is : List Input} {m : Message}
    (h : m ∈ (f.run is).2.appended) : m.fits = true := by
  induction is generalizing f with
  | nil => cases h
  | cons i rest ih =>
    rw [run_cons, List.mem_append] at h
    rcases h with h | h
    · exact fits_of_mem_step h
    · exact ih h

end Flow

/-! ## Packets of messages -/

namespace PacketWriter

/-- Packets that were offered stay offered. -/
theorem attempts_flush (w : PacketWriter) : w.sink.attempts <+: w.flush.sink.attempts := by
  by_cases h : w.messages = 0
  · rw [flush_of_empty h]
  · rw [flush_eq h]
    simp [discard, Sink.write]

theorem attempts_append (w : PacketWriter) (body : Bytes) :
    w.sink.attempts <+: (w.append body).sink.attempts := by
  simp only [append]
  split
  · exact w.attempts_flush
  · exact List.prefix_rfl

theorem Appends.attempts {w w' : PacketWriter} {bodies : List Bytes} (h : w.Appends bodies w') :
    w.sink.attempts <+: w'.sink.attempts := by
  induction h with
  | refl => exact List.prefix_rfl
  | append body _ ih => exact ih.trans (attempts_append _ body)
  | flush _ ih => exact ih.trans (attempts_flush _)

/-- The first message of a new writer is offered in a packet of its own if it is flushed. -/
theorem attempts_single (limit : Nat) (outcome : Nat → Bool) (body : Bytes) :
    ((fresh limit outcome).append body).flush.sink.attempts = [(Packet.frame body, outcome 0)] := by
  have hfollows := ((follows_fresh limit outcome).append body).flush
  rw [hfollows.attempts]
  simp [Plan.step, Plan.isFullFor, Plan.finish, Plan.offered]

/-- The bytes are those of a message that was encoded. -/
def Encodes (body : Bytes) : Prop := ∃ m : Message, m.fits = true ∧ m.layout = body

/-- The writer has offered what was planned to a sink that accepts as `outcome` says, and its packet
under construction holds messages only. -/
def Orderly (outcome : Nat → Bool) (w : PacketWriter) : Prop :=
  ∃ limit p, Follows limit outcome w p ∧ ∀ body ∈ p.current, Encodes body

variable {outcome : Nat → Bool} {w w' : PacketWriter}

theorem orderly_fresh (limit : Nat) (outcome : Nat → Bool) :
    Orderly outcome (fresh limit outcome) := by
  refine ⟨limit, {}, follows_fresh limit outcome, ?_⟩
  intro body hbody
  cases hbody

theorem Orderly.flush (h : Orderly outcome w) : Orderly outcome w.flush := by
  obtain ⟨limit, p, hfollows, -⟩ := h
  refine ⟨limit, _, hfollows.flush, ?_⟩
  intro body hbody
  rw [p.current_finish .offered] at hbody
  cases hbody

theorem Orderly.append {body : Bytes} (h : Orderly outcome w) (hbody : Encodes body) :
    Orderly outcome (w.append body) := by
  obtain ⟨limit, p, hfollows, hcurrent⟩ := h
  obtain ⟨packets, hadds⟩ := p.adds_append limit body
  refine ⟨limit, _, hfollows.append body, ?_⟩
  intro other hother
  have hmem : other ∈ p.current ++ [body] := by
    rw [← hadds.bodies]
    exact List.mem_append_right _ hother
  rcases List.mem_append.1 hmem with hmem | hmem
  · exact hcurrent other hmem
  · rwa [List.mem_singleton.1 hmem]

theorem Appends.orderly {bodies : List Bytes} (h : w.Appends bodies w')
    (hbodies : ∀ body ∈ bodies, Encodes body) (hw : Orderly outcome w) : Orderly outcome w' := by
  induction h with
  | refl => exact hw
  | append body _ ih =>
    apply Orderly.append
    · apply ih
      intro b hb
      exact hbodies b (List.mem_append_left _ hb)
    · exact hbodies body (by simp)
  | flush _ ih => exact (ih hbodies).flush

/-- Bodies of messages make a packet of these messages. -/
theorem exists_messages {bodies : List Bytes} (h : ∀ body ∈ bodies, Encodes body) :
    ∃ ms : List Message, (∀ m ∈ ms, m.fits = true) ∧ ms.map Message.layout = bodies := by
  induction bodies with
  | nil => exact ⟨[], by simp, rfl⟩
  | cons body rest ih =>
    obtain ⟨m, hm, rfl⟩ := h body (by simp)
    obtain ⟨ms, hms, rfl⟩ := ih fun b hb => h b (List.mem_cons_of_mem _ hb)
    refine ⟨m :: ms, ?_, rfl⟩
    intro m' hm'
    rcases List.mem_cons.1 hm' with rfl | hm'
    · exact hm
    · exact hms m' hm'

/-- A message that is appended before a flush is the last of the last packet that is offered. -/
theorem Orderly.append_flush {m : Message} (h : Orderly outcome w) (hm : m.fits = true) :
    ∃ front ms packet,
      (w.append m.layout).flush.sink.attempts = front ++ [(packet, outcome front.length)] ∧
      w.sink.attempts <+: front ∧ Packet.encode (ms ++ [m]) = .ok packet := by
  obtain ⟨limit, p, hfollows, hcurrent⟩ := h
  obtain ⟨packets, hflat, hnonempty, hattempts, -, -⟩ := hfollows.appendAll_flush [m.layout]
  -- the last packet is not empty, so what it ends with is what was appended last
  rcases List.eq_nil_or_concat packets with rfl | ⟨init, last, rfl⟩
  · simp at hflat
  rcases List.eq_nil_or_concat last with rfl | ⟨bodies, body, rfl⟩
  · simp at hnonempty
  simp only [List.concat_eq_append, List.flatten_append, List.flatten_singleton,
    ← List.append_assoc] at hflat
  obtain ⟨hfront, hlast⟩ := List.append_inj' hflat rfl
  cases hlast
  have hencodes : ∀ b ∈ bodies, Encodes b := by
    intro b hb
    apply hcurrent
    rw [← hfront]
    exact List.mem_append_right _ hb
  obtain ⟨ms, hms, hbodies⟩ := exists_messages hencodes
  have hfits : ∀ m' ∈ ms ++ [m], m'.fits = true := by
    intro m' hm'
    rcases List.mem_append.1 hm' with hm' | hm'
    · exact hms m' hm'
    · rwa [List.mem_singleton.1 hm']
  have hlength : w.sink.attempts.length = p.offered.length := by
    rw [hfollows.attempts]
    simp
  refine ⟨w.sink.attempts ++
    init.zipIdx.map (fun x => (Packet.frame x.1.flatten, w.sink.accepts x.2)), ms, _, ?_,
    List.prefix_append _ _, Packet.encode_of_fits hfits⟩
  have happend : (w.append m.layout).flush = (w.appendAll [m.layout]).flush := rfl
  rw [happend, hattempts, hfollows.accepts, ← hbodies]
  simp [List.zipIdx_append, hlength, List.flatMap_def]

end PacketWriter

/-! ## A link while a session is up -/

namespace Link

/-- From `l` a link comes to `l'`: its limit is the same, what was offered stays offered, and its
packet under construction goes on to hold messages only. -/
structure Proceeds (outcome : Nat → Bool) (l l' : Link) : Prop where
  limit : l'.flow.limit = l.flow.limit
  offered : l.writer.sink.attempts <+: l'.writer.sink.attempts
  orderly : l.writer.Orderly outcome → l'.writer.Orderly outcome

variable {outcome : Nat → Bool} {l l' l'' : Link}

theorem Proceeds.trans (h : l.Proceeds outcome l') (h' : l'.Proceeds outcome l'') :
    l.Proceeds outcome l'' := by
  refine ⟨h'.limit.trans h.limit, h.offered.trans h'.offered, ?_⟩
  intro hl
  exact h'.orderly (h.orderly hl)

theorem proceeds_of_eq (hlimit : l'.flow.limit = l.flow.limit) (hwriter : l'.writer = l.writer) :
    l.Proceeds outcome l' := by
  refine ⟨hlimit, ?_, ?_⟩
  · rw [hwriter]
  · intro h
    rwa [hwriter]

theorem proceeds_of_takes {is : List Flow.Input} (h : l.Takes is l') : l.Proceeds outcome l' := by
  refine ⟨?_, h.writer.attempts, ?_⟩
  · rw [h.flow]
    exact congrArg Prod.fst (l.flow.run_settings is)
  · apply h.writer.orderly
    intro body hbody
    obtain ⟨m, hm, rfl⟩ := List.mem_map.1 hbody
    exact ⟨m, Flow.fits_of_mem_run hm, rfl⟩

theorem proceeds_carry (l : Link) (t : Traffic) : l.Proceeds outcome (l.carry t) :=
  proceeds_of_takes (l.carry_takes t)

end Link

namespace Session

/-- What is done with a session while it is up. -/
inductive Action
  | inject (bs : Bytes)
  | send (a : Address) (r : Request)
  | flush
  | pollUplink
  | pollError

def perform (s : Session) : Action → Session
  | .inject bs => s.inject bs
  | .send a r => (s.send a r).1
  | .flush => s.flush
  | .pollUplink => s.pollUplink.1
  | .pollError => s.pollError.1

def performAll (s : Session) (actions : List Action) : Session := actions.foldl perform s

/-- The link of a session, and of one that failed to start if it came to have one. -/
def leftLink : Except (LinkError × Option Link) Session → Option Link
  | .ok s => some s.link
  | .error (_, l) => l

variable {outcome : Nat → Bool} {s : Session}

theorem proceeds_perform (outcome : Nat → Bool) (s : Session) (action : Action) :
    s.link.Proceeds outcome (s.perform action).link ∧ (s.perform action).running = s.running := by
  cases action with
  | inject bs => exact ⟨Link.proceeds_of_takes (s.receiver.feed_takes bs), rfl⟩
  | send a r => exact ⟨s.link.proceeds_carry (.send a r), rfl⟩
  | flush => exact ⟨s.link.proceeds_carry .flush, rfl⟩
  | pollUplink => exact ⟨Link.proceeds_of_eq rfl rfl, rfl⟩
  | pollError => exact ⟨Link.proceeds_of_eq rfl rfl, rfl⟩

theorem proceeds_performAll (outcome : Nat → Bool) (s : Session) (actions : List Action) :
    s.link.Proceeds outcome (s.performAll actions).link ∧
      (s.performAll actions).running = s.running := by
  induction actions generalizing s with
  | nil => exact ⟨Link.proceeds_of_eq rfl rfl, rfl⟩
  | cons action rest ih =>
    obtain ⟨hstep, hrunning⟩ := s.proceeds_perform outcome action
    obtain ⟨hrest, hstill⟩ := ih (s.perform action)
    exact ⟨hstep.trans hrest, hstill.trans hrunning⟩

/-! ## What a session hears -/

/-- `s` hears `bs` and becomes `s'`. What flow control transmits meanwhile is put into packets, and
the packet under construction may be flushed at any time, also between two messages of a packet that
is handled. -/
structure Hears (s : Session) (bs : Bytes) (s' : Session) : Prop where
  takes : s.link.Takes ((Packet.arrivals (s.receiver.assembler.pushAll bs).2).map .receive) s'.link
  assembler : s'.receiver.assembler = (s.receiver.assembler.pushAll bs).1
  config : s'.link.config = s.link.config
  running : s'.running = s.running

variable {s' s'' : Session} {bs bs' : Bytes}

theorem Hears.refl (s : Session) : s.Hears [] s := ⟨Link.Takes.refl s.link, rfl, rfl, rfl⟩

theorem Hears.trans (h : s.Hears bs s') (h' : s'.Hears bs' s'') : s.Hears (bs ++ bs') s'' where
  takes := by
    have htakes := h'.takes
    rw [h.assembler] at htakes
    rw [Assembler.pushAll_append, Packet.arrivals, List.flatMap_append, List.map_append]
    exact h.takes.trans htakes
  assembler := by
    rw [h'.assembler, h.assembler, Assembler.pushAll_append]
  config := h'.config.trans h.config
  running := h'.running.trans h.running

theorem Hears.proceeds (h : s.Hears bs s') (outcome : Nat → Bool) :
    s.link.Proceeds outcome s'.link :=
  Link.proceeds_of_takes h.takes

theorem hears_flush (s : Session) : s.Hears [] s.flush :=
  ⟨(Link.Takes.refl s.link).then_flush, rfl, rfl, rfl⟩

theorem hears_hear (s : Session) (d : Delivery) : s.Hears (Delivery.allBytes [d]) (s.hear d) := by
  cases d with
  | bytes bs =>
    rw [Delivery.allBytes, List.flatMap_singleton]
    exact ⟨s.receiver.feed_takes bs, s.receiver.assembler_feed bs, s.receiver.config_feed bs, rfl⟩
  | interval =>
    rw [hear]
    split
    · exact s.hears_flush
    · exact Hears.refl s

/-- Wherever an interval runs out, the bytes are heard. -/
theorem hears_hearAll (s : Session) (deliveries : List Delivery) :
    s.Hears (Delivery.allBytes deliveries) (s.hearAll deliveries) := by
  induction deliveries generalizing s with
  | nil => exact Hears.refl s
  | cons d rest ih =>
    have hsplit : Delivery.allBytes (d :: rest) =
        Delivery.allBytes [d] ++ Delivery.allBytes rest := by
      simp [Delivery.allBytes]
    rw [hsplit]
    exact (s.hears_hear d).trans (ih (s.hear d))

/-! ## The two messages -/

/-- The messages that begin and end a session are measured alike, with nine bytes. -/
theorem checkFits_control (f : Flow) {r : Request} (hr : r = magicRequest ∨ r = disableRequest) :
    f.checkFits .root r = if 9 ≤ f.limit then .ok () else .error (.capacity 9 f.limit) := by
  have hencode : (r.toMessage .root magic).encode = .ok (r.toMessage .root magic).layout := by
    rcases hr with rfl | rfl <;> rfl
  have hlength : framedLength (r.toMessage .root magic).layout = 9 := by
    rcases hr with rfl | rfl <;> rfl
  simp only [Flow.checkFits, hencode, hlength]

theorem fits_control {r : Request} (hr : r = magicRequest ∨ r = disableRequest) (seq : UInt8) :
    (r.toMessage .root seq).fits = true := by
  rcases hr with rfl | rfl <;> rfl

/-- The last packet that was offered, behind all of `before`, ends with the message `r`. -/
def EndsWith (outcome : Nat → Bool) (r : Request) (before : List (Bytes × Bool)) (l : Link) :
    Prop :=
  ∃ front ms seq packet,
    l.writer.sink.attempts = front ++ [(packet, outcome front.length)] ∧ before <+: front ∧
      Packet.encode (ms ++ [r.toMessage .root seq]) = .ok packet

/-- Unless flow control has it wait, the request for the magic is in the packet that is flushed
next. It has a reason to wait: a stall, messages that wait already, or a lack of credit. -/
def Asks (outcome : Nat → Bool) (s : Session) : Prop :=
  (∃ seq, (s.send .root magicRequest).2 = .ok (.buffered seq) ∧
    EndsWith outcome magicRequest s.link.writer.sink.attempts
      (s.send .root magicRequest).1.flush.link) ∨
  (s.send .root magicRequest).2 = .ok .queued ∧
    ((s.link.flow.table.node .root).stalled = true ∨
      (s.link.flow.table.node .root).pending ≠ [] ∨
      (s.link.flow.table.node .root).credit = 0)

theorem transmit_control (t : NodeTable) {r : Request}
    (hr : r = magicRequest ∨ r = disableRequest) :
    (t.transmit .root r).2.2 = [r.toMessage .root (t.transmit .root r).2.1] := by
  simp [NodeTable.transmit, fits_control hr]

theorem accept_control (f : Flow) {r : Request} (hr : r = magicRequest ∨ r = disableRequest) :
    (∃ seq, (f.accept .root r).2 = (.buffered seq, [r.toMessage .root seq])) ∨
      (f.accept .root r).2.1 = .queued ∧ ((f.table.node .root).stalled = true ∨
        (f.table.node .root).pending ≠ [] ∨ (f.table.node .root).credit = 0) := by
  obtain ⟨hreserve, -⟩ | ⟨hreserve, hwhy⟩ :=
    (f.table.node .root).reserve_cases r.consumesCredit
  · left
    simp only [Flow.accept, NodeTable.reserve, NodeTable.update_eq_put, hreserve, if_true,
      transmit_control _ hr]
    exact ⟨_, rfl⟩
  · right
    simp only [Flow.accept, NodeTable.reserve, NodeTable.update_eq_put, hreserve,
      Bool.false_eq_true, if_false, true_and]
    rcases hwhy with hstalled | hpending | ⟨-, hcredit⟩
    · exact .inl hstalled
    · exact .inr (.inl hpending)
    · exact .inr (.inr hcredit)

theorem asks_of_orderly (hlimit : 9 ≤ s.link.flow.limit)
    (horderly : s.link.writer.Orderly outcome) : Asks outcome s := by
  have hfits : s.link.flow.checkFits .root magicRequest = .ok () := by
    rw [checkFits_control _ (.inl rfl), if_pos hlimit]
  have hsend : s.send .root magicRequest =
      (s.withLink (s.link.pack (s.link.flow.accept .root magicRequest).1
          (s.link.flow.accept .root magicRequest).2.2),
        .ok (s.link.flow.accept .root magicRequest).2.1) := by
    simp only [send, Link.send, Flow.send_eq_ok_of_fits hfits]
  unfold Asks
  rw [hsend]
  rcases accept_control s.link.flow (.inl rfl) with ⟨seq, haccept⟩ | ⟨hqueued, hwhy⟩
  · left
    obtain ⟨front, ms, packet, hattempts, hprefix, hencode⟩ :=
      horderly.append_flush (fits_control (.inl rfl) seq)
    rw [haccept]
    exact ⟨seq, rfl, front, ms, seq, packet, hattempts, hprefix, hencode⟩
  · right
    exact ⟨congrArg Except.ok hqueued, hwhy⟩

theorem transmit_disable (t : NodeTable) :
    (t.transmit .root disableRequest).2.2 =
      [disableRequest.toMessage .root (nextSeq (t.node .root).lastSeq)] := by
  have hnumber : (t.transmit .root disableRequest).2.1 = nextSeq (t.node .root).lastSeq := by
    simp only [NodeTable.transmit]
    split <;> rfl
  rw [transmit_control t (.inr rfl), hnumber]

/-- Stopping hands over what is in the packet under construction and one message more. -/
theorem link_stop (hrunning : s.running = true) (hlimit : 9 ≤ s.link.flow.limit) :
    s.stop.link = (s.link.pack { s.link.flow with
        table := (s.link.flow.table.transmit .root disableRequest).1 }
      [disableRequest.toMessage .root
        (nextSeq (s.link.flow.table.node .root).lastSeq)]).flush.reset := by
  have hfits : s.link.flow.checkFits .root disableRequest = .ok () := by
    rw [checkFits_control _ (.inr rfl), if_pos hlimit]
  simp only [stop, hrunning, if_true, Link.sendUnchecked, Flow.sendUnchecked, hfits, Except.map,
    transmit_disable]
  rfl

theorem endsWith_stop (hrunning : s.running = true) (hlimit : 9 ≤ s.link.flow.limit)
    (horderly : s.link.writer.Orderly outcome) :
    EndsWith outcome disableRequest s.link.writer.sink.attempts s.stop.link := by
  obtain ⟨front, ms, packet, hattempts, hprefix, hencode⟩ := horderly.append_flush
    (fits_control (.inr rfl) (nextSeq (s.link.flow.table.node .root).lastSeq))
  refine ⟨front, ms, _, packet, ?_, hprefix, hencode⟩
  rw [link_stop hrunning hlimit]
  exact hattempts

/-- Where the message does not fit, only the packet under construction leaves. -/
theorem stop_of_lt (hrunning : s.running = true) (hlimit : s.link.flow.limit < 9) :
    s.stop.link = s.link.flush.reset := by
  have hfits : s.link.flow.checkFits .root disableRequest =
      .error (.capacity 9 s.link.flow.limit) := by
    rw [checkFits_control _ (.inr rfl), if_neg (Nat.not_le.2 hlimit)]
  simp only [stop, hrunning, if_true, Link.sendUnchecked, Flow.sendUnchecked, hfits, Except.map]
  rfl

end Session
end RailBus
