import RailBus.Proofs.Teardown

/-!
# How a start comes out

A start with a handshake sees nothing of the line but the messages in packets that can be read. It
comes out well exactly if the request fits and there is an answer among them, and takes the first
answer out of the inbox. Without an answer the session is taken down: whatever the line delivered,
the first that it has said is the request, and the last has the interface fall silent
(`start_iff_answered`). The flush interval may run out at any time meanwhile, and only cuts what is
said into other packets (`Hears`).
-/

namespace RailBus

namespace Session

/-- The messages that a line delivers in packets that can be read. -/
def heard (inbound : Bytes) : List Message := Packet.arrivals (({} : Assembler).pushAll inbound).2

/-! ## Answers -/

theorem isMagicAnswer_iff {m : Message} :
    isMagicAnswer m = true ↔ m.address.isRoot = true ∧ m.type = .sysMagic := by
  simp [isMagicAnswer]

theorem isMagicAnswer_of_deliveredAs {m d : Message} (h : m.DeliveredAs d) :
    isMagicAnswer d = isMagicAnswer m := by
  have haddress : m.address = d.address := (congrArg Message.address h.1).symm
  rw [isMagicAnswer, isMagicAnswer, haddress, h.type_eq]

/-- Messages that are delivered for others hold an answer if those do. -/
theorem any_answer_of_deliveredAs {ms ds : List Message}
    (h : List.Forall₂ Message.DeliveredAs ms ds) : ds.any isMagicAnswer = ms.any isMagicAnswer := by
  induction h with
  | nil => rfl
  | cons hfirst _ ih => rw [List.any_cons, List.any_cons, ih, isMagicAnswer_of_deliveredAs hfirst]

/-- An answer is neither a stall signal nor an error report. -/
theorem any_answer_filter (ms : List Message) :
    (ms.filter fun m => m.type ≠ .stall && !m.type.isError).any isMagicAnswer =
      ms.any isMagicAnswer := by
  rw [List.any_filter]
  congr 1
  funext m
  cases hm : isMagicAnswer m with
  | false => exact Bool.and_false _
  | true =>
    rw [(isMagicAnswer_iff.1 hm).2]
    decide

end Session

/-- The oldest match is taken out, and what is before and behind it stays in order. -/
theorem Inbox.popMatching_of_any {b : Inbox} {p : Message → Bool} (h : b.messages.any p = true) :
    ∃ front m rest, b.messages = front ++ m :: rest ∧ p m = true ∧ (∀ d ∈ front, p d = false) ∧
      b.popMatching p = (⟨front ++ rest⟩, some m) := by
  obtain ⟨m, hm⟩ := Option.isSome_iff_exists.1 (List.find?_isSome.2 (List.any_eq_true.1 h))
  obtain ⟨hp, front, rest, hsplit, hfront⟩ := List.find?_eq_some_iff_append.1 hm
  have hnone : ∀ d ∈ front, p d = false := by
    intro d hd
    simpa using hfront d hd
  refine ⟨front, m, rest, hsplit, hp, hnone, ?_⟩
  have herase : b.messages.eraseP p = front ++ rest := by
    rw [hsplit, List.eraseP_append_right _ (by simpa using hnone), List.eraseP_cons_of_pos hp]
  rw [popMatching, herase, hm]

theorem Inbox.popMatching_of_not_any {b : Inbox} {p : Message → Bool}
    (h : b.messages.any p = false) : b.popMatching p = (b, none) := by
  have hnone : ∀ m ∈ b.messages, ¬ p m = true := List.any_eq_false.1 h
  rw [popMatching, List.eraseP_of_forall_not hnone, List.find?_eq_none.2 hnone]

namespace Session

variable {config : Config} {sink : Sink} {deliveries : List Delivery} {inbound : Bytes}
  {outcome : Nat → Bool} {s : Session}

/-! ## What is heard behind the request -/

/-- A session that has asked for the magic of the interface. -/
def asked (config : Config) (sink : Sink) : Session :=
  (opened config sink).performAll [.send .root magicRequest, .flush]

theorem config_of_hears (h : (asked config sink).Hears inbound s) : s.link.config = config :=
  h.config.trans ((Link.new config sink).config_send .root magicRequest)

/-- Both inboxes hold what was heard, each in the order of arrival. -/
theorem inboxes_of_hears (h : (asked config sink).Hears inbound s) :
    List.Forall₂ Message.DeliveredAs
        ((heard inbound).filter fun m => m.type ≠ .stall && !m.type.isError)
        s.link.flow.uplink.messages ∧
      List.Forall₂ Message.DeliveredAs
        ((heard inbound).filter fun m => m.type ≠ .stall && m.type.isError)
        s.link.flow.errors.messages := by
  have hsend := ((Link.new config sink).send_takes .root magicRequest).flow
  obtain ⟨huplink, herrors⟩ := (Link.new config sink).flow.hands_run [.send .root magicRequest]
  rw [← hsend] at huplink herrors
  have hflow : s.link.flow = (((Link.new config sink).send .root magicRequest).1.flow.run
      ((heard inbound).map .receive)).1 := h.takes.flow
  obtain ⟨⟨ds, hds, hdelivered⟩, es, hes, hreported⟩ :=
    ((Link.new config sink).send .root magicRequest).1.flow.inboxes_run (heard inbound)
  rw [hflow, hds, hes, huplink, herrors]
  exact ⟨hdelivered, hreported⟩

/-- An answer was heard exactly if there is one in the inbox. -/
theorem any_answer_of_hears (h : (asked config sink).Hears inbound s) :
    s.link.flow.uplink.messages.any isMagicAnswer = (heard inbound).any isMagicAnswer := by
  rw [any_answer_of_deliveredAs (inboxes_of_hears h).1, any_answer_filter]

/-- Behind the packet of the request comes what flow control lets out because of what is heard. -/
theorem transcript_of_hears (h : config.validate = .ok ()) (hlimit : 9 ≤ config.link.maxPacketSize)
    (hs : (asked config { accepts := outcome }).Hears inbound s) :
    ∃ offered buffered, s.link.writer.Transcript config.link.maxPacketSize outcome
        ([magicRequest.toMessage .root 1] :: offered) buffered ∧
      offered.flatten ++ buffered =
        (asked config { accepts := outcome }).transmitted [.inject inbound] := by
  obtain ⟨-, hwriter⟩ := send_magic config outcome hlimit
  have hsingle := PacketWriter.transcript_single (fits_control (.inl rfl) 1)
    config.link.maxPacketSize outcome
  rw [← hwriter] at hsingle
  exact hs.transcribes (limit_le_of_validate h) outcome _ _ hsingle

/-! ## How the wait ends -/

/-- Of all that was heard the session has taken out the first answer. -/
structure Answered (inbound : Bytes) (s : Session) : Prop where
  uplink : ∃ front answer rest,
    List.Forall₂ Message.DeliveredAs
      ((heard inbound).filter fun m => m.type ≠ .stall && !m.type.isError)
      (front ++ answer :: rest) ∧
    isMagicAnswer answer = true ∧ (∀ d ∈ front, isMagicAnswer d = false) ∧
    s.link.flow.uplink.messages = front ++ rest
  errors : List.Forall₂ Message.DeliveredAs
    ((heard inbound).filter fun m => m.type ≠ .stall && m.type.isError)
    s.link.flow.errors.messages

/-- A session that has asked, has heard `inbound` and is taken down has offered packets that are read
as the request under number 1, what had to be said meanwhile, and the message that has the interface
fall silent. -/
def GivenUp (config : Config) (outcome : Nat → Bool) (inbound : Bytes) (s : Session) : Prop :=
  ∃ offered buffered last,
    offered.flatten ++ buffered =
      (asked config { accepts := outcome }).transmitted [.inject inbound] ∧
    TakenDown outcome s.link s.stop.link ([magicRequest.toMessage .root 1] :: offered) buffered last

theorem conclude_of_answer (h : (asked config sink).Hears inbound s)
    (hanswer : (heard inbound).any isMagicAnswer = true) :
    s.conclude.2 = .ok () ∧ Answered inbound s.conclude.1 := by
  obtain ⟨huplink, herrors⟩ := inboxes_of_hears h
  rw [← any_answer_of_hears h] at hanswer
  obtain ⟨front, answer, rest, hsplit, hfirst, hfront, hpop⟩ := Inbox.popMatching_of_any hanswer
  rw [hsplit] at huplink
  rw [conclude, hpop]
  exact ⟨rfl, ⟨front, answer, rest, huplink, hfirst, hfront, rfl⟩, herrors⟩

theorem conclude_of_no_answer (h : (asked config sink).Hears inbound s)
    (hanswer : (heard inbound).any isMagicAnswer = false) :
    s.conclude = (s, .error (.handshakeTimeout config.session.handshakeTimeoutMs)) := by
  rw [← any_answer_of_hears h] at hanswer
  rw [conclude, Inbox.popMatching_of_not_any hanswer, config_of_hears h]

/-- A session that gives up has asked first, whatever it heard and said then. -/
theorem givenUp_of_hears (h : config.validate = .ok ()) (hlimit : 9 ≤ config.link.maxPacketSize)
    (hs : (asked config { accepts := outcome }).Hears inbound s) :
    GivenUp config outcome inbound s := by
  obtain ⟨offered, buffered, htranscript, hsaid⟩ := transcript_of_hears h hlimit hs
  obtain ⟨hproceeds, hrunning⟩ := (opened config { accepts := outcome }).proceeds_performAll outcome
    [.send .root magicRequest, .flush]
  have hleast : 9 ≤ s.link.flow.limit := by
    rw [(hproceeds.trans (hs.proceeds outcome)).limit]
    exact hlimit
  obtain ⟨last, hlast⟩ := takenDown_stop (hs.running.trans hrunning) hleast
    (limit_le_of_validate h) htranscript
  exact ⟨offered, buffered, last, hsaid, hlast⟩

/-- What comes of a session that has asked and has heard `inbound`. -/
structure HeardOut (config : Config) (outcome : Nat → Bool) (inbound : Bytes) (s : Session) :
    Prop where
  answered_iff : s.conclude.2 = .ok () ↔ ∃ m ∈ heard inbound, isMagicAnswer m = true
  answered : s.conclude.2 = .ok () → Answered inbound s.conclude.1
  givenUp : GivenUp config outcome inbound s

theorem heardOut_of_hears (h : config.validate = .ok ()) (hlimit : 9 ≤ config.link.maxPacketSize)
    (hs : (asked config { accepts := outcome }).Hears inbound s) :
    HeardOut config outcome inbound s := by
  have hgivenUp := givenUp_of_hears h hlimit hs
  cases hanswer : (heard inbound).any isMagicAnswer with
  | true =>
    obtain ⟨hok, hanswered⟩ := conclude_of_answer hs hanswer
    exact ⟨iff_of_true hok (List.any_eq_true.1 hanswer), fun _ => hanswered, hgivenUp⟩
  | false =>
    have hno := congrArg Prod.snd (conclude_of_no_answer hs hanswer)
    have hnone : ¬ ∃ m ∈ heard inbound, isMagicAnswer m = true := by
      rw [← List.any_eq_true, hanswer]
      exact Bool.false_ne_true
    have hfailed : ¬ s.conclude.2 = .ok () := by
      rw [hno]
      nofun
    exact ⟨iff_of_false hfailed hnone, fun hok => absurd hok hfailed, hgivenUp⟩

/-! ## How a start comes out -/

theorem fits_magic_iff {limit : Nat} : magicRequest.Fits limit .root ↔ 9 ≤ limit := by
  have hfits : (magicRequest.toMessage .root magic).fits = true := rfl
  have hlength : framedLength (magicRequest.toMessage .root magic).layout = 9 := rfl
  rw [Request.Fits, hfits, hlength]
  simp

/-- A start whose request fits comes out as a look into the inbox says. -/
theorem start_eq_conclude (h : config.validate = .ok ())
    (hhandshake : config.session.handshake = true) (hlimit : 9 ≤ config.link.maxPacketSize)
    (outcome : Nat → Bool) (deliveries : List Delivery) :
    start config { accepts := outcome } deliveries =
      match ((asked config { accepts := outcome }).hearAll deliveries).conclude with
      | (s, .ok ()) => .ok s
      | (s, .error e) => .error (e, some s.stop.link) := by
  obtain ⟨⟨receipt, hreceipt⟩, -⟩ := send_magic config outcome hlimit
  have hasked := handshake_eq_conclude hreceipt deliveries
  simp only [opened] at hasked
  simp only [start, h, hhandshake, if_true, hasked]
  rfl

theorem start_of_answer (h : config.validate = .ok ())
    (hhandshake : config.session.handshake = true) (hlimit : 9 ≤ config.link.maxPacketSize)
    (hanswer : (heard (Delivery.allBytes deliveries)).any isMagicAnswer = true)
    (outcome : Nat → Bool) :
    ∃ s, start config { accepts := outcome } deliveries = .ok s ∧
      Answered (Delivery.allBytes deliveries) s := by
  obtain ⟨hok, hanswered⟩ := conclude_of_answer
    ((asked config { accepts := outcome }).hears_hearAll deliveries) hanswer
  rw [start_eq_conclude h hhandshake hlimit]
  cases hconclude : ((asked config { accepts := outcome }).hearAll deliveries).conclude with
  | mk s result =>
    rw [hconclude] at hok hanswered
    cases hok
    exact ⟨s, rfl, hanswered⟩

theorem start_of_no_answer (h : config.validate = .ok ())
    (hhandshake : config.session.handshake = true) (hlimit : 9 ≤ config.link.maxPacketSize)
    (hanswer : (heard (Delivery.allBytes deliveries)).any isMagicAnswer = false)
    (outcome : Nat → Bool) :
    start config { accepts := outcome } deliveries =
      .error (.handshakeTimeout config.session.handshakeTimeoutMs,
        some ((asked config { accepts := outcome }).hearAll deliveries).stop.link) := by
  rw [start_eq_conclude h hhandshake hlimit, conclude_of_no_answer
    ((asked config { accepts := outcome }).hears_hearAll deliveries) hanswer]

/-- Only a request that fits and is answered lets a start come out well. -/
theorem answered_of_start (h : config.validate = .ok ())
    (hhandshake : config.session.handshake = true)
    (hs : start config { accepts := outcome } deliveries = .ok s) :
    9 ≤ config.link.maxPacketSize ∧
      (heard (Delivery.allBytes deliveries)).any isMagicAnswer = true ∧
      Answered (Delivery.allBytes deliveries) s := by
  by_cases hlimit : 9 ≤ config.link.maxPacketSize
  · cases hanswer : (heard (Delivery.allBytes deliveries)).any isMagicAnswer with
    | true =>
      obtain ⟨s', hs', hanswered⟩ := start_of_answer h hhandshake hlimit hanswer outcome
      rw [hs] at hs'
      cases hs'
      exact ⟨hlimit, rfl, hanswered⟩
    | false =>
      rw [start_of_no_answer h hhandshake hlimit hanswer] at hs
      cases hs
  · rw [start_of_lt h hhandshake (Nat.not_le.1 hlimit)] at hs
    cases hs

/-- **A start with a handshake comes out well exactly if it is answered.** Whatever a line delivers
in time once it was written to, wherever in it the flush interval runs out, and whichever writes
fail, a session has started exactly if the request for the magic of the interface fits a packet and
an answer is in some packet that can be read. Then the first answer is taken out, and all else that
was heard is left in the order of arrival. A request that does not fit is an error with nothing
offered. Without an answer the start runs out of time, and the session is taken down: the packets it
has offered are read as the request under number 1, what had to be said meanwhile, and at the end the
message that has the interface fall silent, also if it has stopped itself. The flushes make other
packets of the same messages. None of this changes if the interval runs out between two messages of
one packet. -/
theorem start_iff_answered (h : config.validate = .ok ())
    (hhandshake : config.session.handshake = true) (outcome : Nat → Bool)
    (deliveries : List Delivery) :
    ((∃ s, start config { accepts := outcome } deliveries = .ok s) ↔
        magicRequest.Fits config.link.maxPacketSize .root ∧
          ∃ m ∈ heard (Delivery.allBytes deliveries), isMagicAnswer m = true) ∧
      (∀ s, start config { accepts := outcome } deliveries = .ok s →
        Answered (Delivery.allBytes deliveries) s) ∧
      (¬ magicRequest.Fits config.link.maxPacketSize .root → ∃ l,
        start config { accepts := outcome } deliveries =
          .error (.capacity 9 config.link.maxPacketSize, some l) ∧
        l.writer.sink.attempts = []) ∧
      (magicRequest.Fits config.link.maxPacketSize .root →
        (∀ m ∈ heard (Delivery.allBytes deliveries), isMagicAnswer m = false) → ∃ s,
          start config { accepts := outcome } deliveries =
            .error (.handshakeTimeout config.session.handshakeTimeoutMs, some s.stop.link) ∧
          s = (asked config { accepts := outcome }).hearAll deliveries ∧
          GivenUp config outcome (Delivery.allBytes deliveries) s) ∧
      (magicRequest.Fits config.link.maxPacketSize .root →
        ∀ s, (asked config { accepts := outcome }).Hears (Delivery.allBytes deliveries) s →
          HeardOut config outcome (Delivery.allBytes deliveries) s) := by
  rw [fits_magic_iff, ← List.any_eq_true, Nat.not_le]
  refine ⟨⟨?_, ?_⟩, ?_, ?_, ?_, fun hlimit s hs => heardOut_of_hears h hlimit hs⟩
  · rintro ⟨s, hs⟩
    obtain ⟨hlimit, hanswer, -⟩ := answered_of_start h hhandshake hs
    exact ⟨hlimit, hanswer⟩
  · rintro ⟨hlimit, hanswer⟩
    obtain ⟨s, hs, -⟩ := start_of_answer h hhandshake hlimit hanswer outcome
    exact ⟨s, hs⟩
  · intro s hs
    exact (answered_of_start h hhandshake hs).2.2
  · intro hlimit
    exact ⟨_, start_of_lt h hhandshake hlimit _ deliveries, rfl⟩
  · intro hlimit hnone
    have hanswer : (heard (Delivery.allBytes deliveries)).any isMagicAnswer = false := by
      simpa using hnone
    have hheard := (asked config { accepts := outcome }).hears_hearAll deliveries
    exact ⟨_, start_of_no_answer h hhandshake hlimit hanswer outcome, rfl,
      givenUp_of_hears h hlimit hheard⟩

/-- The interface stops itself. -/
def interfaceStalls : Bytes :=
  Packet.frame { address := .root, seq := 1, type := .stall, payload := [1] : Message }.layout

/-- Behind noise the interface stops itself, and then answers twice in one packet. -/
def answeredTwice : Bytes :=
  [0x11] ++ interfaceStalls ++ Packet.frame (magicAnswer.layout ++ magicAnswer.layout)

/-- A node appears, the flush interval runs out, and then the interface stops itself. -/
def nodeAppears : List Delivery :=
  let arrival : Message := { address := .root, seq := 1, type := .nodeNew, payload := [7] }
  [.bytes (Packet.frame arrival.layout), .interval, .bytes interfaceStalls]

/-- The second of two answers is left. Where a node appears and there is no answer, the node is
acknowledged in a packet of its own before the interface is told to fall silent. -/
theorem answered_and_unanswered :
    nineBytes.validate = .ok () ∧ nineBytes.session.handshake = true ∧
      (∃ s, start nineBytes { accepts := fun _ => true } answeredTwice = .ok s ∧
        Answered answeredTwice s ∧ s.link.flow.uplink.messages.length = 1) ∧
      ({} : Config).validate = .ok () ∧
      ∃ s, start {} { accepts := fun _ => true } nodeAppears =
          .error (.handshakeTimeout 1000, some s.stop.link) ∧
        GivenUp {} (fun _ => true) (Delivery.allBytes nodeAppears) s ∧
        s.stop.link.writer.sink.attempts.length = 3 := by
  have hvalid : nineBytes.validate = .ok () := rfl
  have hfits : magicRequest.Fits nineBytes.link.maxPacketSize .root :=
    fits_magic_iff.2 (Nat.le_refl 9)
  obtain ⟨hstarts, hanswered, -⟩ :=
    start_iff_answered hvalid rfl (fun _ => true) answeredTwice
  obtain ⟨s, hs⟩ := hstarts.2 ⟨hfits, by decide +kernel⟩
  have hleft : (leftLink (start nineBytes { accepts := fun _ => true } answeredTwice)).map
      (·.flow.uplink.messages.length) = some 1 := by
    decide +kernel
  obtain ⟨-, -, -, hunanswered, -⟩ :=
    @start_iff_answered {} rfl rfl (fun _ => true) nodeAppears
  obtain ⟨s', hs', -, hgivenUp⟩ :=
    hunanswered (fits_magic_iff.2 (by decide)) (by decide +kernel)
  have hattempts : (leftLink (start {} { accepts := fun _ => true } nodeAppears)).map
      (·.writer.sink.attempts.length) = some 3 := by
    decide +kernel
  rw [hs] at hleft
  rw [hs'] at hattempts
  refine ⟨hvalid, rfl, ⟨s, hs, ?_, Option.some.inj hleft⟩, rfl, s', hs', hgivenUp,
    Option.some.inj hattempts⟩
  simpa [Delivery.allBytes] using hanswered s hs

end Session
end RailBus
