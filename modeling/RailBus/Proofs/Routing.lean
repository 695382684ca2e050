import RailBus.Proofs.Credit
import RailBus.Proofs.Damage
import RailBus.Proofs.Delivery
import RailBus.Proofs.Renewal
import Mathlib.Data.List.Forall2

/-!
# Where inbound messages go

Whatever the state of a link, each message that comes in a packet is delivered once, a stall signal
apart, and is counted. A node change is acknowledged by one message to its sender, which no credit
is taken for. A packet that could not be read is counted and does nothing else
(`inbound_routed_once`).
-/

namespace RailBus

namespace Packet

/-- The messages of a packet that could be read. -/
def messages : Result → List Message
  | .ok ms => ms
  | .error _ => []

def arrivals (results : List Result) : List Message := results.flatMap messages

/-- The packet could be read. -/
def readable : Result → Bool
  | .ok _ => true
  | .error _ => false

/-- The packet has a wrong checksum. -/
def mismatched : Result → Bool
  | .ok _ => false
  | .error e => e.isMismatch

/-- The packet is damaged in another way. -/
def malformed : Result → Bool
  | .ok _ => false
  | .error e => !e.isMismatch

theorem kinds (result : Result) :
    (readable result).toNat + (mismatched result).toNat + (malformed result).toNat = 1 := by
  cases result with
  | ok ms => rfl
  | error e =>
    show 0 + e.isMismatch.toNat + (!e.isMismatch).toNat = 1
    cases e.isMismatch <;> rfl

theorem countP_cons (p : Result → Bool) (result : Result) (rest : List Result) :
    (result :: rest).countP p = (p result).toNat + rest.countP p := by
  rw [List.countP_cons, Nat.add_comm]
  cases p result <;> rfl

theorem length_eq_countP (results : List Result) :
    results.length = results.countP readable + results.countP mismatched +
      results.countP malformed := by
  induction results with
  | nil => rfl
  | cons result rest ih =>
    have hkinds := kinds result
    rw [List.length_cons, countP_cons, countP_cons, countP_cons]
    omega

end Packet

/-! ## What is delivered for a message -/

/-- `d` is delivered for `m`: the message itself, but for the action id if it is an answer. -/
def Message.DeliveredAs (m d : Message) : Prop :=
  d.onLine = m.onLine ∧ (Flow.settles m = false → d = m)

theorem Message.DeliveredAs.type_eq {m d : Message} (h : m.DeliveredAs d) : m.type = d.type :=
  (congrArg Message.type h.1).symm

namespace Flow

theorem settle_deliveredAs (f : Flow) (m : Message) : m.DeliveredAs (f.settle m).2.1 := by
  unfold settle
  split
  case isTrue hm => exact ⟨rfl, fun hnot => absurd hm (by simp [hnot])⟩
  case isFalse => exact ⟨rfl, fun _ => rfl⟩

theorem delivered_deliveredAs (f : Flow) (i : Input) :
    List.Forall₂ Message.DeliveredAs i.inbound ((f.delivered i).map (·.message)) := by
  cases i with
  | send a r => exact .nil
  | disable => exact .nil
  | receive m =>
    by_cases hm : m.type = .stall
    · simp [Input.inbound, delivered, hm]
    · simpa [Input.inbound, delivered, hm] using settle_deliveredAs _ m

theorem deliveries_deliveredAs (f : Flow) (is : List Input) :
    List.Forall₂ Message.DeliveredAs (is.flatMap Input.inbound)
      ((f.deliveries is).map (·.message)) := by
  induction is generalizing f with
  | nil => exact .nil
  | cons i rest ih =>
    rw [List.flatMap_cons, deliveries, List.map_append]
    exact List.rel_append (f.delivered_deliveredAs i) (ih (f.step i).1)

theorem inbound_receive (ms : List Message) :
    (ms.map Input.receive).flatMap Input.inbound = ms.filter (·.type ≠ .stall) := by
  induction ms with
  | nil => rfl
  | cons m rest ih =>
    rw [List.map_cons, List.flatMap_cons, ih, List.filter_cons]
    by_cases hm : m.type = .stall <;> simp [Input.inbound, hm]

/-- Messages that come in are added to the inboxes, in the order of arrival. -/
theorem inboxes_run (f : Flow) (ms : List Message) :
    (∃ ds, (f.run (ms.map .receive)).1.uplink.messages = f.uplink.messages ++ ds ∧
        List.Forall₂ Message.DeliveredAs
          (ms.filter fun m => m.type ≠ .stall && !m.type.isError) ds) ∧
      ∃ ds, (f.run (ms.map .receive)).1.errors.messages = f.errors.messages ++ ds ∧
        List.Forall₂ Message.DeliveredAs
          (ms.filter fun m => m.type ≠ .stall && m.type.isError) ds := by
  obtain ⟨huplink, herrors⟩ := f.hands_run (ms.map .receive)
  have hdelivered := f.deliveries_deliveredAs (ms.map .receive)
  rw [inbound_receive] at hdelivered
  -- each inbox takes the messages of certain types, and a delivered message is of the same type
  have hrouted : ∀ p : MessageType → Bool, List.Forall₂ Message.DeliveredAs
      (ms.filter fun m => m.type ≠ .stall && p m.type)
      (((f.deliveries (ms.map .receive)).map (·.message)).filter fun d => p d.type) := by
    intro p
    have hsplit : ms.filter (fun m => m.type ≠ .stall && p m.type) =
        (ms.filter (·.type ≠ .stall)).filter fun m => p m.type := by
      rw [List.filter_filter]
      apply List.filter_congr
      intro m _
      exact Bool.and_comm _ _
    rw [hsplit]
    apply List.rel_filter _ hdelivered
    intro m d hd
    show p m.type = true ↔ p d.type = true
    rw [hd.type_eq]
  exact ⟨⟨_, huplink, hrouted (!·.isError)⟩, ⟨_, herrors, hrouted (·.isError)⟩⟩

/-! ## Counting messages -/

theorem messagesReceived_of_touchesTable {f g : Flow} (h : f.TouchesTable g) :
    g.messagesReceived = f.messagesReceived := by rw [h]

theorem messagesReceived_deliver (f : Flow) (m : Message) :
    (f.deliver m).messagesReceived = f.messagesReceived := by
  unfold deliver
  split <;> rfl

theorem messagesReceived_receive (f : Flow) (m : Message) :
    (f.receive m).1.messagesReceived = f.messagesReceived + 1 := by
  by_cases hm : m.type = .stall
  · simp only [receive, hm, if_true]
    rfl
  · have htouch := ((f.observe m).touchesTable_react m).trans (touchesTable_settle _ m)
    simp only [receive, hm, if_false, messagesReceived_deliver]
    rw [messagesReceived_of_touchesTable htouch]
    rfl

theorem messagesReceived_run (f : Flow) (ms : List Message) :
    (f.run (ms.map .receive)).1.messagesReceived = f.messagesReceived + ms.length := by
  induction ms generalizing f with
  | nil => rfl
  | cons m rest ih =>
    have hstep : (f.step (.receive m)).1 = (f.receive m).1 := rfl
    rw [List.map_cons, run_cons]
    show ((f.step (.receive m)).1.run (rest.map .receive)).1.messagesReceived = _
    rw [ih, hstep, messagesReceived_receive, List.length_cons]
    omega

/-! ## Node changes -/

/-- A node has arrived or was lost. -/
def isNodeChange (m : Message) : Bool := m.type = .nodeNew ∨ m.type = .nodeLost

theorem of_isNodeChange {m : Message} (hm : isNodeChange m = true) :
    (m.type = .nodeNew ∨ m.type = .nodeLost) ∧ m.type ≠ .stall ∧ m.type ≠ .pktCapacity ∧
      settles m = false := by
  have hchange : m.type = .nodeNew ∨ m.type = .nodeLost := of_decide_eq_true hm
  refine ⟨hchange, ?_⟩
  unfold settles
  rcases hchange with h | h <;> rw [h] <;> decide

/-- What acknowledges a node change goes to the node that told of it. -/
def acknowledgement (m : Message) : Address × Request := (m.address, changeAck m)

theorem checkFits_congr {f g : Flow} (h : g.limit = f.limit) (a : Address) (r : Request) :
    g.checkFits a r = f.checkFits a r := by
  simp only [checkFits, h]

/-- Of a message that comes in, only the acknowledgement of a node change is accepted for sending,
once, if a packet can hold it. -/
theorem accepted_receive (f : Flow) (m : Message) :
    f.accepted (.receive m) =
      (([m].filter isNodeChange).map acknowledgement).filter
        fun x => (f.checkFits x.1 x.2).isOk := by
  by_cases hm : m.type = .nodeNew ∨ m.type = .nodeLost
  · have hobserve : (f.observe m).checkFits m.address (changeAck m) =
        f.checkFits m.address (changeAck m) := checkFits_congr rfl _ _
    cases hc : f.checkFits m.address (changeAck m) with
    | error e =>
      rw [hc] at hobserve
      simp [accepted, hm, isNodeChange, acknowledgement, send_eq_error hobserve, hc, Except.isOk,
        Except.toBool]
    | ok u =>
      rw [hc] at hobserve
      simp [accepted, hm, isNodeChange, acknowledgement, send_eq_ok_of_fits hobserve, hc,
        Except.isOk, Except.toBool]
  · simp [accepted, hm, isNodeChange]

theorem accepted_run (f : Flow) (ms : List Message) :
    (f.run (ms.map .receive)).2.accepted =
      ((ms.filter isNodeChange).map acknowledgement).filter
        fun x => (f.checkFits x.1 x.2).isOk := by
  induction ms generalizing f with
  | nil => rfl
  | cons m rest ih =>
    have hlimit : ∀ x : Address × Request,
        (f.step (.receive m)).1.checkFits x.1 x.2 = f.checkFits x.1 x.2 := by
      intro x
      exact checkFits_congr (f.limit_step _) _ _
    have hsplit : (m :: rest).filter isNodeChange =
        [m].filter isNodeChange ++ rest.filter isNodeChange := by
      rw [← List.filter_append]
      rfl
    rw [List.map_cons, run_cons, accepted_receive, hsplit, List.map_append, List.filter_append]
    simp only [ih, hlimit]

end Flow

namespace Node

/-- What of a node is credit: how much it grants, how much is in use, and what for. -/
def account (n : Node) : UInt8 × Nat × List Outstanding := (n.capacity, n.inUse, n.outstanding)

theorem account_transmit (n : Node) (a : Address) {r : Request} (hr : r.consumesCredit = false) :
    (n.transmit a r).1.account = n.account := by
  simp only [transmit, nextNumber, hr, Bool.false_eq_true, if_false]
  split <;> rfl

theorem account_meet_heard (n : Node) (a : Address) (seq : UInt8) :
    (n.meet a (.heard seq)).1.account = n.account := by
  obtain ⟨last, hmeet⟩ := n.meet_heard a seq
  rw [hmeet]
  rfl

/-- A request that needs no credit takes none, whether it is sent or has to wait. -/
theorem account_meet_offered (n : Node) (a : Address) {r : Request}
    (hr : r.consumesCredit = false) : (n.meet a (.offered r)).1.account = n.account := by
  obtain ⟨h, -⟩ | ⟨h, -⟩ := n.reserve_cases r.consumesCredit
  · simp only [meet, regulate, h, transmitAll]
    rw [account_transmit _ a hr]
    simp [account, hr]
  · simp only [meet, regulate, h, transmitAll]
    rfl

theorem account_meetAll {os : List Occurrence} (n : Node) (a : Address)
    (h : ∀ o ∈ os, (∃ seq, o = .heard seq) ∨ ∃ r, o = .offered r ∧ r.consumesCredit = false) :
    (n.meetAll a os).1.account = n.account := by
  induction os generalizing n with
  | nil => rfl
  | cons o rest ih =>
    rw [meetAll_cons, ih _ fun o' ho' => h o' (List.mem_cons_of_mem _ ho')]
    rcases h o (by simp) with ⟨seq, rfl⟩ | ⟨r, rfl, hr⟩
    · exact n.account_meet_heard a seq
    · exact n.account_meet_offered a hr

end Node

namespace Flow

theorem account_step (f : Flow) (i : Input) (a : Address) :
    ((f.step i).1.table.node a).account =
      ((f.table.node a).meetAll a (f.occurrences a i)).1.account := by
  have hentry := f.step_actsAs i a |>.1
  by_cases hnone : f.occurrences a i = []
  · rw [if_pos hnone] at hentry
    rw [hnone]
    -- an unknown node may come to inherit a stall, but is granted the same credit
    cases hfind : f.table.nodes.find? a with
    | none =>
      rw [hfind] at hentry
      simp [NodeTable.node, hentry, hfind, Node.account, Node.meetAll, f.defaultCredit_step i]
    | some n =>
      rw [hfind] at hentry
      rw [NodeTable.node_of_find? hentry, NodeTable.node_of_find? hfind]
      rfl
  · rw [if_neg hnone] at hentry
    rw [NodeTable.node_of_find? hentry]

/-- A node change takes no credit of any node and gives none back. -/
theorem account_nodeChange (f : Flow) {m : Message} (hm : isNodeChange m = true) (a : Address) :
    ((f.receive m).1.table.node a).account = (f.table.node a).account := by
  obtain ⟨hchange, hstall, hcapacity, hsettles⟩ := of_isNodeChange hm
  have hanswers : answers m = [] := by simp [answers, hsettles]
  have hstep := f.account_step (.receive m) a
  rw [Node.account_meetAll] at hstep
  · exact hstep
  · intro o ho
    simp only [occurrences, hstall, if_false, false_and, hanswers, List.append_nil] at ho
    split at ho
    · rcases List.mem_cons.1 ho with rfl | ho
      · exact .inl ⟨_, rfl⟩
      · rw [reactions, if_neg hcapacity, if_pos hchange] at ho
        exact .inr ⟨_, (of_mem_offers ho).1, rfl⟩
    · cases ho

end Flow

namespace Link

/-- Takes note of the number of an inbound message. -/
def hear (l : Link) (m : Message) : Link := { l with flow := l.flow.observe m }

/-- Puts a message into its inbox. -/
def hand (l : Link) (m : Message) : Link := { l with flow := l.flow.deliver m }

/-- Between the two steps that any message but a stall signal goes through, a node change is
acknowledged by one message that is sent as any other is. -/
theorem receive_nodeChange (l : Link) {m : Message} (hm : Flow.isNodeChange m = true) :
    l.receive m = ((l.hear m).send m.address (Flow.changeAck m)).1.hand m := by
  obtain ⟨hchange, hstall, hcapacity, hsettles⟩ := Flow.of_isNodeChange hm
  have hcloses : Flow.closesPacket m = false := by simp [Flow.closesPacket, hstall]
  have hflow : (l.hear m).flow = l.flow.observe m := rfl
  simp only [receive, hcloses, Flow.receive, hstall, if_false, Flow.react, hcapacity, hchange,
    if_true, Flow.handleNodeChange, Flow.settle, hsettles, Bool.false_eq_true, List.append_nil,
    send, hflow]
  cases (l.flow.observe m).send m.address (Flow.changeAck m) <;> rfl

/-! ## Packets -/

/-- To flow control packets are the messages in those that could be read. -/
theorem inputs_handle (results : List Packet.Result) :
    (results.map Traffic.handle).flatMap Traffic.inputs =
      (Packet.arrivals results).map .receive := by
  rw [List.flatMap_map, Packet.arrivals, List.map_flatMap]
  congr 1
  funext result
  cases result <;> rfl

theorem handlePackets_takes (l : Link) (results : List Packet.Result) :
    l.Takes ((Packet.arrivals results).map .receive) (l.handlePackets results) := by
  have hcarried : l.handlePackets results = l.carryAll (results.map .handle) := by
    rw [carryAll, List.foldl_map]
    rfl
  rw [← inputs_handle, hcarried]
  exact l.carryAll_takes _

/-- The link has counted some more packets: with a wrong checksum, or damaged in another way. -/
def counting (l : Link) (crc framing : Nat) : Link :=
  { l with crcErrors := l.crcErrors + crc, framingErrors := l.framingErrors + framing }

theorem counting_counting (l : Link) (crc framing crc' framing' : Nat) :
    (l.counting crc framing).counting crc' framing' =
      l.counting (crc + crc') (framing + framing') := by
  simp only [counting, Nat.add_assoc]

theorem counting_eq_withPast (l : Link) (crc framing : Nat) :
    l.counting crc framing =
      l.withPast ⟨{ Stats.zero with crcErrors := crc, framingErrors := framing }, []⟩ := by
  simp [counting, withPast, Flow.withPast, PacketWriter.withPast, Stats.zero, Nat.add_comm]

theorem handlePacket_error_counting (l : Link) (e : WireError) :
    l.handlePacket (.error e) = l.counting e.isMismatch.toNat (!e.isMismatch).toNat := by
  rw [handlePacket_error]
  cases e.isMismatch <;> rfl

/-- Packets are handled alike whatever has been counted. -/
theorem handlePackets_counting (l : Link) (results : List Packet.Result) (crc framing : Nat) :
    (l.counting crc framing).handlePackets results =
      (l.handlePackets results).counting crc framing := by
  rw [counting_eq_withPast, counting_eq_withPast, handlePackets_withPast]

/-- Packets that could not be read are counted, and are as good as not there otherwise. -/
theorem handlePackets_eq_readable (l : Link) (results : List Packet.Result) :
    l.handlePackets results =
      (l.handlePackets (results.filter Packet.readable)).counting
        (results.countP Packet.mismatched) (results.countP Packet.malformed) := by
  induction results generalizing l with
  | nil => rfl
  | cons result rest ih =>
    cases result with
    | ok ms => exact ih (l.handlePacket (.ok ms))
    | error e =>
      show (l.handlePacket (.error e)).handlePackets rest =
        (l.handlePackets (rest.filter Packet.readable)).counting _ _
      rw [handlePacket_error_counting, handlePackets_counting, ih, counting_counting]
      cases h : e.isMismatch <;> simp [Packet.mismatched, Packet.malformed, h]

theorem packets_receive (l : Link) (m : Message) :
    (l.receive m).packetsReceived = l.packetsReceived ∧ (l.receive m).crcErrors = l.crcErrors ∧
      (l.receive m).framingErrors = l.framingErrors := by
  simp only [receive]
  split <;> exact ⟨rfl, rfl, rfl⟩

theorem packets_foldl_receive (l : Link) (ms : List Message) :
    (ms.foldl receive l).packetsReceived = l.packetsReceived ∧
      (ms.foldl receive l).crcErrors = l.crcErrors ∧
      (ms.foldl receive l).framingErrors = l.framingErrors := by
  induction ms generalizing l with
  | nil => exact ⟨rfl, rfl, rfl⟩
  | cons m rest ih =>
    obtain ⟨hpackets, hcrc, hframing⟩ := ih (l.receive m)
    obtain ⟨hpackets', hcrc', hframing'⟩ := l.packets_receive m
    exact ⟨hpackets.trans hpackets', hcrc.trans hcrc', hframing.trans hframing'⟩

/-- One of the three counters moves. -/
theorem packets_handlePacket (l : Link) (result : Packet.Result) :
    (l.handlePacket result).packetsReceived =
        l.packetsReceived + (Packet.readable result).toNat ∧
      (l.handlePacket result).crcErrors = l.crcErrors + (Packet.mismatched result).toNat ∧
      (l.handlePacket result).framingErrors =
        l.framingErrors + (Packet.malformed result).toNat := by
  cases result with
  | ok ms => exact packets_foldl_receive { l with packetsReceived := l.packetsReceived + 1 } ms
  | error e =>
    rw [handlePacket_error_counting]
    exact ⟨rfl, rfl, rfl⟩

theorem packets_handlePackets (l : Link) (results : List Packet.Result) :
    (l.handlePackets results).packetsReceived =
        l.packetsReceived + results.countP Packet.readable ∧
      (l.handlePackets results).crcErrors = l.crcErrors + results.countP Packet.mismatched ∧
      (l.handlePackets results).framingErrors =
        l.framingErrors + results.countP Packet.malformed := by
  induction results generalizing l with
  | nil => exact ⟨rfl, rfl, rfl⟩
  | cons result rest ih =>
    obtain ⟨hpackets, hcrc, hframing⟩ := ih (l.handlePacket result)
    obtain ⟨hpackets', hcrc', hframing'⟩ := l.packets_handlePacket result
    rw [hpackets', Nat.add_assoc, ← Packet.countP_cons] at hpackets
    rw [hcrc', Nat.add_assoc, ← Packet.countP_cons] at hcrc
    rw [hframing', Nat.add_assoc, ← Packet.countP_cons] at hframing
    exact ⟨hpackets, hcrc, hframing⟩

/-- From `l` the packets `results` lead to `l'`, and their messages are where they belong. -/
structure Routes (l : Link) (results : List Packet.Result) (l' : Link) : Prop where
  /-- what is neither a stall signal nor an error report is read from the one inbox -/
  uplink : ∃ ds, l'.flow.uplink.messages = l.flow.uplink.messages ++ ds ∧
    List.Forall₂ Message.DeliveredAs
      ((Packet.arrivals results).filter fun m => m.type ≠ .stall && !m.type.isError) ds
  /-- and error reports from the other -/
  errors : ∃ ds, l'.flow.errors.messages = l.flow.errors.messages ++ ds ∧
    List.Forall₂ Message.DeliveredAs
      ((Packet.arrivals results).filter fun m => m.type ≠ .stall && m.type.isError) ds
  /-- nothing is accepted for sending but one acknowledgement for each node change, if it fits -/
  accepted : (l.ledger (results.map .handle)).accepted =
    (((Packet.arrivals results).filter Flow.isNodeChange).map Flow.acknowledgement).filter
      fun x => (l.flow.checkFits x.1 x.2).isOk
  messagesReceived :
    l'.flow.messagesReceived = l.flow.messagesReceived + (Packet.arrivals results).length
  packetsReceived : l'.packetsReceived = l.packetsReceived + results.countP Packet.readable
  packets : l'.packetsReceived + l'.crcErrors + l'.framingErrors =
    l.packetsReceived + l.crcErrors + l.framingErrors + results.length
  /-- a packet that could not be read moves one counter, and all else is as if it had not come -/
  unread : l' = (l.handlePackets (results.filter Packet.readable)).counting
    (results.countP Packet.mismatched) (results.countP Packet.malformed)

theorem routes_handlePackets (l : Link) (results : List Packet.Result) :
    l.Routes results (l.handlePackets results) := by
  have hflow := (l.handlePackets_takes results).flow
  have hinboxes := l.flow.inboxes_run (Packet.arrivals results)
  have hreceived := l.flow.messagesReceived_run (Packet.arrivals results)
  rw [← hflow] at hinboxes hreceived
  obtain ⟨hpackets, hcrc, hframing⟩ := l.packets_handlePackets results
  have hlength := Packet.length_eq_countP results
  have haccepted := l.flow.accepted_run (Packet.arrivals results)
  rw [← inputs_handle] at haccepted
  exact
    { uplink := hinboxes.1
      errors := hinboxes.2
      accepted := haccepted
      messagesReceived := hreceived
      packetsReceived := hpackets
      packets := by omega
      unread := l.handlePackets_eq_readable results }

/-- **Every inbound message is delivered once.** Whatever the state of a link and whatever its
assembler makes of packets, all messages in them but stall signals are added to the two inboxes, in
the order of arrival, and only answers are given action ids. The loss of a node is an error report.
Messages and packets are counted, and a packet that could not be read is counted and nothing else. A
node change is acknowledged to its sender by one message, with the first byte of its payload or 0,
and takes no credit of any node and gives none back. -/
theorem inbound_routed_once (l : Link) (results : List Packet.Result) :
    l.Routes results (l.handlePackets results) ∧
      MessageType.nodeLost.isError = true ∧
      (∀ e, l.handlePacket (.error e) =
        if e.isMismatch then { l with crcErrors := l.crcErrors + 1 }
        else { l with framingErrors := l.framingErrors + 1 }) ∧
      ∀ m : Message, m.type = .nodeNew ∨ m.type = .nodeLost →
        l.receive m = ((l.hear m).send m.address
          { type := .nodeChangedAck, payload := [m.payload.headD 0] }).1.hand m ∧
        ∀ a, ((l.receive m).flow.table.node a).capacity = (l.flow.table.node a).capacity ∧
          ((l.receive m).flow.table.node a).inUse = (l.flow.table.node a).inUse ∧
          ((l.receive m).flow.table.node a).outstanding = (l.flow.table.node a).outstanding := by
  refine ⟨l.routes_handlePackets results, rfl, l.handlePacket_error, ?_⟩
  intro m hchange
  have hm : Flow.isNodeChange m = true := decide_eq_true hchange
  refine ⟨l.receive_nodeChange hm, fun a => ?_⟩
  have haccount := l.flow.account_nodeChange hm a
  have hflow : (l.receive m).flow = (l.flow.receive m).1 := (l.receive_takes m).flow
  rw [hflow]
  simpa only [Node.account, Prod.mk.injEq] using haccount

/-- A node is lost while it has a request to answer, and the message does not say which list of
nodes it is gone from. -/
theorem lost_node_acknowledged :
    let l := (narrow.send child command).1
    let m : Message := { address := child, seq := 1, type := .nodeLost }
    l.receive m = ((l.hear m).send child { type := .nodeChangedAck, payload := [0] }).1.hand m ∧
      (l.flow.table.node child).inUse = 1 ∧ ((l.receive m).flow.table.node child).inUse = 1 := by
  intro l m
  obtain ⟨-, -, -, hchange⟩ := inbound_routed_once l []
  obtain ⟨hacknowledged, hcredit⟩ := hchange m (.inr rfl)
  have hused : (l.flow.table.node child).inUse = 1 := by decide +kernel
  exact ⟨hacknowledged, hused, (hcredit child).2.1.trans hused⟩

end Link
end RailBus
