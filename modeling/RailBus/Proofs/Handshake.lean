import RailBus.Proofs.Session

/-!
# How a session begins and ends on the line

A session begins with a request for the magic of the interface and ends with the message that has it
fall silent. Either takes seven bytes on the line, but is measured with a number and a checksum of
two bytes each. So a link whose packets may have nine bytes carries both, and one whose packets may
not refuses both, though its configuration is valid (`control_messages_sent_iff`).
-/

namespace RailBus

namespace Session

/-! ## Starting -/

/-- A session whose link has just been made. -/
def opened (config : Config) (sink : Sink) : Session := { receiver := { link := .new config sink } }

/-- What has become of it when the start has come to its end, one way or the other. -/
def entered (config : Config) (sink : Sink) (deliveries : List Delivery) : Session :=
  if config.session.handshake then ((opened config sink).handshake deliveries).1
  else (opened config sink).hearAll deliveries

variable {config : Config} {sink : Sink} {deliveries : List Delivery} {outcome : Nat → Bool}
  {s : Session}

/-- A start either leaves the session up or takes it down. -/
theorem start_cases (h : config.validate = .ok ()) (sink : Sink) (deliveries : List Delivery) :
    start config sink deliveries = .ok (entered config sink deliveries) ∨
      ∃ e, start config sink deliveries =
        .error (e, some (entered config sink deliveries).stop.link) := by
  cases hhandshake : config.session.handshake with
  | false =>
    left
    simp [start, h, entered, hhandshake, opened]
  | true =>
    cases hresult : (opened config sink).handshake deliveries with
    | mk s result =>
      cases result with
      | ok u =>
        left
        simp only [opened] at hresult
        simp [start, h, entered, hhandshake, opened, hresult]
      | error e =>
        right
        simp only [opened] at hresult
        exact ⟨e, by simp [start, h, entered, hhandshake, opened, hresult]⟩

/-- A session that has started is what became of a new one, on a valid configuration. -/
theorem eq_entered_of_start (hs : start config sink deliveries = .ok s) :
    config.validate = .ok () ∧ s = entered config sink deliveries := by
  cases h : config.validate with
  | error e => simp [start, h] at hs
  | ok u =>
    refine ⟨rfl, ?_⟩
    rcases start_cases h sink deliveries with hstart | ⟨e, hstart⟩
    · rw [hs] at hstart
      exact Except.ok.inj hstart
    · rw [hs] at hstart
      cases hstart

/-- A request that is refused ends the handshake. -/
theorem handshake_of_error {e : LinkError} (h : (s.send .root magicRequest).2 = .error e)
    (deliveries : List Delivery) :
    s.handshake deliveries = ((s.send .root magicRequest).1, .error e) := by
  cases hsend : s.send .root magicRequest with
  | mk s' result =>
    rw [hsend] at h
    cases h
    simp [handshake, hsend]

/-- Looks for the answer in all that has come, and takes it out of the inbox. -/
def conclude (s : Session) : Session × Except LinkError Unit :=
  match s.link.flow.uplink.popMatching isMagicAnswer with
  | (_, none) => (s, .error (.handshakeTimeout s.link.config.session.handshakeTimeoutMs))
  | (inbox, some _) => (s.withFlow { s.link.flow with uplink := inbox }, .ok ())

/-- A handshake whose request is accepted is two actions, then what comes, and a look into the
inbox. -/
theorem handshake_eq_conclude {receipt : Receipt}
    (h : (s.send .root magicRequest).2 = .ok receipt) (deliveries : List Delivery) :
    s.handshake deliveries =
      ((s.performAll [.send .root magicRequest, .flush]).hearAll deliveries).conclude := by
  have hasked : s.performAll [.send .root magicRequest, .flush] =
      (s.send .root magicRequest).1.flush := rfl
  rw [hasked]
  cases hsend : s.send .root magicRequest with
  | mk s' result =>
    rw [hsend] at h
    cases h
    simp only [handshake, hsend]
    rfl

theorem proceeds_conclude (outcome : Nat → Bool) (s : Session) :
    s.link.Proceeds outcome s.conclude.1.link ∧ s.conclude.1.running = s.running := by
  unfold conclude
  split <;> exact ⟨Link.proceeds_of_eq rfl rfl, rfl⟩

/-- Once the request is accepted it is flushed, and what comes after that is heard. -/
theorem handshake_of_ok {receipt : Receipt} (h : (s.send .root magicRequest).2 = .ok receipt)
    (outcome : Nat → Bool) (deliveries : List Delivery) :
    (s.send .root magicRequest).1.flush.link.Proceeds outcome (s.handshake deliveries).1.link ∧
      (s.handshake deliveries).1.running = s.running := by
  have hheard := (s.send .root magicRequest).1.flush.hears_hearAll deliveries
  obtain ⟨hconclude, hrunning⟩ :=
    ((s.send .root magicRequest).1.flush.hearAll deliveries).proceeds_conclude outcome
  rw [handshake_eq_conclude h deliveries]
  exact ⟨(hheard.proceeds outcome).trans hconclude, hrunning.trans hheard.running⟩

theorem proceeds_handshake (outcome : Nat → Bool) (s : Session) (deliveries : List Delivery) :
    s.link.Proceeds outcome (s.handshake deliveries).1.link ∧
      (s.handshake deliveries).1.running = s.running := by
  have hsend := (s.proceeds_perform outcome (.send .root magicRequest)).1
  cases hresult : (s.send .root magicRequest).2 with
  | error e =>
    rw [handshake_of_error hresult deliveries]
    exact ⟨hsend, rfl⟩
  | ok receipt =>
    have hflush := ((s.send .root magicRequest).1.proceeds_perform outcome .flush).1
    obtain ⟨hrest, hrunning⟩ := handshake_of_ok hresult outcome deliveries
    exact ⟨(hsend.trans hflush).trans hrest, hrunning⟩

theorem proceeds_entered (outcome : Nat → Bool) (config : Config) (sink : Sink)
    (deliveries : List Delivery) :
    (Link.new config sink).Proceeds outcome (entered config sink deliveries).link ∧
      (entered config sink deliveries).running = true := by
  unfold entered
  split
  · exact (opened config sink).proceeds_handshake outcome deliveries
  · have hheard := (opened config sink).hears_hearAll deliveries
    exact ⟨hheard.proceeds outcome, hheard.running⟩

theorem proceeds_start (outcome : Nat → Bool) (hs : start config sink deliveries = .ok s) :
    (Link.new config sink).Proceeds outcome s.link ∧ s.running = true := by
  obtain ⟨-, rfl⟩ := eq_entered_of_start hs
  exact proceeds_entered outcome config sink deliveries

/-- A new link grants some credit, so that the request goes out under the first number. -/
theorem accept_magic (config : Config) (sink : Sink) :
    ((Link.new config sink).flow.accept .root magicRequest).2.2 =
      [magicRequest.toMessage .root 1] := by
  have hcredit : (max config.flowControl.defaultCredit 1).toNat ≠ 0 := by
    have h := UInt8.le_iff_toNat_le.1 (Node.one_le_max config.flowControl.defaultCredit)
    exact Nat.one_le_iff_ne_zero.1 h
  have hnode : (Link.new config sink).flow.table.node .root =
      Node.fresh (max config.flowControl.defaultCredit 1) false := rfl
  have hreserve : (Node.fresh (max config.flowControl.defaultCredit 1) false).reserve
      magicRequest.consumesCredit =
        ({ Node.fresh (max config.flowControl.defaultCredit 1) false with inUse := 1 }, true) := by
    have hconsumes : magicRequest.consumesCredit = true := by decide
    simp [Node.reserve, Node.fresh, Node.credit, hcredit, hconsumes]
  rw [(Flow.accept_eq _ _ _).2, hnode]
  simp only [Node.meet, Node.regulate, hreserve]
  rfl

/-- The request for the magic is accepted and goes into a packet of its own. -/
theorem send_magic (config : Config) (outcome : Nat → Bool)
    (hlimit : 9 ≤ config.link.maxPacketSize) :
    (∃ receipt, ((opened config { accepts := outcome }).send .root magicRequest).2 = .ok receipt) ∧
      ((opened config { accepts := outcome }).send .root magicRequest).1.flush.link.writer =
        ((PacketWriter.fresh config.link.maxPacketSize outcome).append
          (magicRequest.toMessage .root 1).layout).flush := by
  have hfits : (Link.new config { accepts := outcome }).flow.checkFits .root magicRequest =
      .ok () := by
    rw [checkFits_control _ (.inl rfl)]
    exact if_pos hlimit
  have hlink : (Link.new config { accepts := outcome }).send .root magicRequest =
      ((Link.new config { accepts := outcome }).pack
          ((Link.new config { accepts := outcome }).flow.accept .root magicRequest).1
          [magicRequest.toMessage .root 1],
        .ok ((Link.new config { accepts := outcome }).flow.accept .root magicRequest).2.1) := by
    rw [Link.send, Flow.send_eq_ok_of_fits hfits, ← accept_magic config { accepts := outcome }]
  have hsend : (opened config { accepts := outcome }).send .root magicRequest =
      ((opened config { accepts := outcome }).withLink
          ((Link.new config { accepts := outcome }).send .root magicRequest).1,
        ((Link.new config { accepts := outcome }).send .root magicRequest).2) := rfl
  rw [hsend, hlink]
  exact ⟨⟨_, rfl⟩, rfl⟩

/-- The first packet that is offered asks the interface for its magic. -/
theorem attempts_handshake (outcome : Nat → Bool) (deliveries : List Delivery)
    (hlimit : 9 ≤ config.link.maxPacketSize) :
    ∃ packet, Packet.encode [magicRequest.toMessage .root 1] = .ok packet ∧
      [(packet, outcome 0)] <+:
        ((opened config { accepts := outcome }).handshake deliveries).1.link.writer.sink.attempts := by
  obtain ⟨⟨receipt, hreceipt⟩, hwriter⟩ := send_magic config outcome hlimit
  have hoffered := (handshake_of_ok hreceipt outcome deliveries).1.offered
  rw [hwriter, PacketWriter.attempts_single] at hoffered
  exact ⟨_, rfl, hoffered⟩

/-- Where the request does not fit, the session is taken down as it was made. -/
theorem start_of_lt (h : config.validate = .ok ()) (hhandshake : config.session.handshake = true)
    (hlimit : config.link.maxPacketSize < 9) (sink : Sink) (deliveries : List Delivery) :
    start config sink deliveries =
      .error (.capacity 9 config.link.maxPacketSize,
        some (opened config sink).link.flush.reset) := by
  have hfits : (Link.new config sink).flow.checkFits .root magicRequest =
      .error (.capacity 9 config.link.maxPacketSize) := by
    rw [checkFits_control _ (.inl rfl)]
    exact if_neg (Nat.not_le.2 hlimit)
  have hsend : (opened config sink).send .root magicRequest =
      (opened config sink, .error (.capacity 9 config.link.maxPacketSize)) := by
    simp only [send, opened, link, Link.send, Flow.send_eq_error hfits]
    rfl
  have hfailed := handshake_of_error (congrArg Prod.snd hsend) deliveries
  rw [hsend] at hfailed
  have hstop : (opened config sink).stop.link = (opened config sink).link.flush.reset :=
    stop_of_lt rfl hlimit
  simp only [opened] at hfailed hstop ⊢
  simp only [start, h, hhandshake, if_true, hfailed, hstop]

/-- Whatever came before, stopping a session has the interface fall silent. -/
theorem endsWith_of_proceeds
    (hlink : (Link.new config { accepts := outcome }).Proceeds outcome s.link)
    (hrunning : s.running = true) (hlimit : 9 ≤ config.link.maxPacketSize) :
    EndsWith outcome disableRequest s.link.writer.sink.attempts s.stop.link := by
  refine endsWith_stop hrunning ?_ (hlink.orderly ?_)
  · rw [hlink.limit]
    exact hlimit
  · exact PacketWriter.orderly_fresh config.link.maxPacketSize outcome

theorem attempts_start (h : config.validate = .ok ()) (hhandshake : config.session.handshake = true)
    (hlimit : 9 ≤ config.link.maxPacketSize) (outcome : Nat → Bool) (deliveries : List Delivery) :
    ∃ l packet, leftLink (start config { accepts := outcome } deliveries) = some l ∧
      Packet.encode [magicRequest.toMessage .root 1] = .ok packet ∧
      l.writer.sink.attempts.head? = some (packet, outcome 0) := by
  obtain ⟨packet, hencode, hfirst⟩ := attempts_handshake outcome deliveries hlimit
  have hentered : entered config { accepts := outcome } deliveries =
      ((opened config { accepts := outcome }).handshake deliveries).1 := if_pos hhandshake
  rw [← hentered] at hfirst
  have hhead : ∀ l : Link, [(packet, outcome 0)] <+: l.writer.sink.attempts →
      l.writer.sink.attempts.head? = some (packet, outcome 0) := by
    rintro l ⟨rest, hl⟩
    rw [← hl]
    rfl
  rcases start_cases h { accepts := outcome } deliveries with hstart | ⟨e, hstart⟩
  · rw [hstart]
    exact ⟨_, packet, rfl, hencode, hhead _ hfirst⟩
  · obtain ⟨hproceeds, hrunning⟩ :=
      proceeds_entered outcome config { accepts := outcome } deliveries
    obtain ⟨front, ms, seq, last, hstop, hbefore, -⟩ :=
      endsWith_of_proceeds hproceeds hrunning hlimit
    rw [hstart]
    refine ⟨_, packet, rfl, hencode, hhead _ ?_⟩
    rw [hstop]
    exact (hfirst.trans hbefore).trans (List.prefix_append _ _)

/-! ## Both messages, or neither -/

/-- On a sink that accepts as `outcome` says and a line from which `deliveries` come a session is
begun and ended as it should be, also one that fails to start. A handshake takes the line to be
silent until it is written to; of one that is not, flow control may have heard a reason to wait. -/
structure Carried (config : Config) (outcome : Nat → Bool) (deliveries : List Delivery) : Prop where
  begun : config.session.handshake = true → ∃ l packet,
    leftLink (start config { accepts := outcome } deliveries) = some l ∧
      Packet.encode [magicRequest.toMessage .root 1] = .ok packet ∧
      l.writer.sink.attempts.head? = some (packet, outcome 0)
  asked : ∀ early, Asks outcome ((opened config { accepts := outcome }).hearAll early)
  ended : ∀ s actions, start config { accepts := outcome } deliveries = .ok s →
    EndsWith outcome disableRequest (s.performAll actions).link.writer.sink.attempts
      (s.performAll actions).stop.link
  failed : ∀ e l, start config { accepts := outcome } deliveries = .error (e, some l) →
    EndsWith outcome disableRequest [] l

/-- A handshake fails with nothing offered, and stopping a session only flushes. -/
structure Refused (config : Config) (sink : Sink) (deliveries : List Delivery) : Prop where
  begun : config.session.handshake = true → ∃ l,
    start config sink deliveries = .error (.capacity 9 config.link.maxPacketSize, some l) ∧
      l.writer.sink.attempts = sink.attempts
  ended : ∀ s actions, start config sink deliveries = .ok s →
    (s.performAll actions).stop.link = (s.performAll actions).link.flush.reset

theorem carried_of_le (h : config.validate = .ok ()) (hlimit : 9 ≤ config.link.maxPacketSize)
    (outcome : Nat → Bool) (deliveries : List Delivery) : Carried config outcome deliveries := by
  constructor
  · intro hhandshake
    exact attempts_start h hhandshake hlimit outcome deliveries
  · intro early
    have hheard := ((opened config { accepts := outcome }).hears_hearAll early).proceeds outcome
    apply asks_of_orderly
    · rw [hheard.limit]
      exact hlimit
    · exact hheard.orderly (PacketWriter.orderly_fresh config.link.maxPacketSize outcome)
  · intro s actions hs
    obtain ⟨hproceeds, hrunning⟩ := proceeds_start outcome hs
    obtain ⟨hactions, hstill⟩ := s.proceeds_performAll outcome actions
    exact endsWith_of_proceeds (hproceeds.trans hactions) (hstill.trans hrunning) hlimit
  · intro e l hl
    rcases start_cases h { accepts := outcome } deliveries with hstart | ⟨e', hstart⟩
    · rw [hl] at hstart
      cases hstart
    · rw [hl] at hstart
      cases hstart
      obtain ⟨hproceeds, hrunning⟩ :=
        proceeds_entered outcome config { accepts := outcome } deliveries
      obtain ⟨front, ms, seq, packet, hstop, -, hencode⟩ :=
        endsWith_of_proceeds hproceeds hrunning hlimit
      exact ⟨front, ms, seq, packet, hstop, List.nil_prefix, hencode⟩

theorem refused_of_lt (h : config.validate = .ok ()) (hlimit : config.link.maxPacketSize < 9)
    (sink : Sink) (deliveries : List Delivery) : Refused config sink deliveries := by
  constructor
  · intro hhandshake
    exact ⟨_, start_of_lt h hhandshake hlimit sink deliveries, rfl⟩
  · intro s actions hs
    -- how the sink will take packets makes no difference here
    obtain ⟨hproceeds, hrunning⟩ := proceeds_start (fun _ => true) hs
    obtain ⟨hactions, hstill⟩ := s.proceeds_performAll (fun _ => true) actions
    apply stop_of_lt (hstill.trans hrunning)
    rw [(hproceeds.trans hactions).limit]
    exact hlimit

/-- **A session is begun and ended on the line, unless its packets are too small.** Whatever has
happened to a link with a valid configuration, the messages that begin and end a session fit its
packets exactly if these may have nine bytes. Then the first packet that a handshake offers to the
sink asks for the magic, or flow control has heard a reason to have the request wait, and the last
packet that stopping offers ends with the message that has the interface fall silent, whatever was
done in between, wherever the flush interval ran out, whichever writes fail, and also where the start
fails. With smaller packets a handshake fails with nothing offered, and stopping only flushes. -/
theorem control_messages_sent_iff {config : Config} (h : config.validate = .ok ()) :
    (∀ sink es r, r = magicRequest ∨ r = disableRequest →
      (((Link.new config sink).run es).flow.checkFits .root r = .ok () ↔
        9 ≤ config.link.maxPacketSize)) ∧
      (9 ≤ config.link.maxPacketSize → ∀ outcome deliveries, Carried config outcome deliveries) ∧
      (config.link.maxPacketSize < 9 → ∀ sink deliveries, Refused config sink deliveries) := by
  refine ⟨?_, carried_of_le h, refused_of_lt h⟩
  intro sink es r hr
  have hlimit : ((Link.new config sink).run es).flow.limit = config.link.maxPacketSize :=
    (Link.reached_new config sink es).limit
  rw [checkFits_control _ hr, hlimit]
  by_cases hsize : 9 ≤ config.link.maxPacketSize <;> simp [hsize]

/-- Packets of the least size that carries both messages. -/
def nineBytes : Config := { link := { maxPacketSize := 9 } }

/-- What an interface answers to the request for its magic. -/
def magicAnswer : Message :=
  { address := .root, seq := 1, type := .sysMagic, payload := [0xAF, 0xFE] }

/-- The interface answers, a command is sent, and the session is stopped. -/
theorem begun_and_ended_in_nine_bytes :
    nineBytes.validate = .ok () ∧
      ∃ s packet, start nineBytes {} (Packet.frame magicAnswer.layout) = .ok s ∧
        Packet.encode [magicRequest.toMessage .root 1] = .ok packet ∧
        s.link.writer.sink.attempts.head? = some (packet, true) ∧
        EndsWith (fun _ => true) disableRequest
          (s.perform (.send .root { type := ⟨0x30⟩ })).link.writer.sink.attempts
          (s.perform (.send .root { type := ⟨0x30⟩ })).stop.link := by
  have hvalid : nineBytes.validate = .ok () := rfl
  have hstarts : (start nineBytes {} (Packet.frame magicAnswer.layout)).isOk = true := by
    decide +kernel
  obtain ⟨-, hfits, -⟩ := control_messages_sent_iff hvalid
  have hcarried := hfits (by decide) (fun _ => true) (Packet.frame magicAnswer.layout)
  cases hs : start nineBytes {} (Packet.frame magicAnswer.layout) with
  | error e => simp [hs, Except.isOk, Except.toBool] at hstarts
  | ok s =>
    obtain ⟨l, packet, hl, hencode, hhead⟩ := hcarried.begun rfl
    rw [hs] at hl
    cases hl
    have hended := hcarried.ended s [.send .root { type := ⟨0x30⟩ }] hs
    exact ⟨hvalid, s, packet, rfl, hencode, hhead, hended⟩

/-- Packets of eight bytes are valid and too small. -/
theorem eight_bytes_refuse_control :
    ({ link := { maxPacketSize := 8 } } : Config).validate = .ok () ∧
      ∃ l, start { link := { maxPacketSize := 8 } } {} [] = .error (.capacity 9 8, some l) ∧
        l.writer.sink.attempts = [] :=
  ⟨rfl, _, rfl, rfl⟩

end Session
end RailBus
