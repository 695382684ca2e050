import RailBus.Proofs.Order
import RailBus.Proofs.PacketSize
import RailBus.Proofs.Stall

/-!
# Stall episodes

From the message that stops a node until one that frees it, nothing is sent to the node and to
those below it, be they known already or not (`Shut`). All that waits then leaves at once, node by
node, and is handed to the sink.
-/

namespace RailBus

/-- A stall message that frees the node at `a`, a node above it or one below. -/
def Message.Frees (m : Message) (a : Address) : Prop :=
  m.type = .stall ∧ m.stops = false ∧ (m.address.isPrefixOf a ∨ a.isPrefixOf m.address)

instance (m : Message) (a : Address) : Decidable (m.Frees a) :=
  inferInstanceAs (Decidable (_ ∧ _ ∧ (_ ∨ _)))

/-! ## While a stall lasts -/

namespace Flow

variable {f : Flow} {i : Input} {a b : Address}

/-- The node at `a` is stalled with all known nodes below it. -/
structure Shut (f : Flow) (a : Address) : Prop where
  known : (f.table.nodes.find? a).isSome
  stalled : ∀ b n, a.isPrefixOf b = true → f.table.nodes.find? b = some n → n.stalled = true

/-- A node below that is not known yet takes over the stall. -/
theorem Shut.node_stalled (h : f.Shut a) (hb : a.isPrefixOf b = true) :
    (f.table.node b).stalled = true := by
  cases hknown : f.table.nodes.find? b with
  | some n =>
    rw [NodeTable.node_of_find? hknown]
    exact h.stalled b n hb hknown
  | none =>
    obtain ⟨n, hn⟩ := Option.isSome_iff_exists.1 h.known
    have hne : a ≠ b := by
      rintro rfl
      rw [hknown] at hn
      cases hn
    have hstalled := h.stalled a n a.isPrefixOf_self hn
    rw [NodeTable.stalled_node_of_unknown hknown, NodeTable.inheritsStall_iff]
    exact ⟨a, NodeTable.isStalled_iff.2 ⟨n, hn, hstalled⟩, Address.isAncestorOf_iff.2 ⟨hb, hne⟩⟩

theorem shut_of_stops (f : Flow) {m : Message} (hm : m.type = .stall) (hstops : m.stops = true) :
    (f.step (.receive m)).1.Shut m.address := by
  constructor
  · have hocc : f.occurrences m.address (.receive m) = [.heard m.seq, .stalled m.stops] := by
      rw [occurrences_of_signals ⟨hm, m.address.isPrefixOf_self⟩, if_pos rfl]
    rw [find?_step, hocc]
    rfl
  · intro b n hb hn
    rw [stalled_of_signals hn ⟨hm, hb⟩, hstops]

theorem Shut.step (h : f.Shut a) (hi : ∀ m, i = .receive m → ¬ m.Frees a) :
    (f.step i).1.Shut a := by
  refine ⟨known_step h.known i, fun b n hb hn => ?_⟩
  by_cases hsignal : i.Signals b
  · obtain ⟨m, rfl, hm⟩ := hsignal.receive
    -- the message came from a node above `b`, as `a` is, so one of the two lies above the other
    rw [stalled_of_signals hn hm]
    by_contra hstops
    exact hi m rfl ⟨hm.1, (Bool.not_eq_true _).mp hstops, Address.isPrefixOf_or_isPrefixOf hm.2 hb⟩
  · rw [stalled_of_quiet hn hsignal]
    exact h.node_stalled hb

/-- The stall lasts until a message frees, and nothing is sent meanwhile. -/
theorem Shut.run {is : List Input} (h : f.Shut a) (hi : ∀ m, .receive m ∈ is → ¬ m.Frees a)
    (hcalm : .disable ∉ is) :
    (f.run is).1.Shut a ∧
      ∀ b, a.isPrefixOf b = true → sentTo b (f.run is).2.appended = [] := by
  induction is generalizing f with
  | nil => exact ⟨h, fun b _ => rfl⟩
  | cons i rest ih =>
    have hstep : (f.step i).1.Shut a := by
      refine h.step fun m hm => hi m ?_
      rw [hm]
      exact List.mem_cons_self
    have hne : i ≠ .disable := fun heq => hcalm (heq ▸ List.mem_cons_self)
    obtain ⟨hshut, hsilent⟩ := ih hstep (fun m hm => hi m (List.mem_cons_of_mem _ hm))
      (fun hmem => hcalm (List.mem_cons_of_mem _ hmem))
    refine ⟨hshut, fun b hb => ?_⟩
    rw [run_cons, sentTo_append, hsilent b hb, List.append_nil]
    exact sentTo_of_stalled hne fun n hn => hstep.stalled b n hb hn

end Flow

/-! ## When it ends -/

namespace NodeTable

variable {t : NodeTable} {a : Address} {n : Node}

/-- What waits for the node at `a` and for those below it, node by node. -/
def waitingBelow (t : NodeTable) (a : Address) : List (Address × Request) :=
  (t.knownNodes.filter a.isPrefixOf).flatMap fun b => (t.node b).pending.map (b, ·)

theorem knownNodes_sorted (t : NodeTable) : t.knownNodes.Pairwise (· < ·) :=
  List.pairwise_map.2 t.nodes.sorted

theorem waitingBelow_eq (t : NodeTable) (a : Address) :
    t.waitingBelow a = t.nodes.entries.flatMap fun (b, n) =>
      if a.isPrefixOf b then n.pending.map (b, ·) else [] := by
  have hnode : ∀ x ∈ t.nodes.entries, t.node x.1 = x.2 := fun x hx =>
    node_of_find? (AddressMap.find?_of_mem hx)
  simp only [waitingBelow, knownNodes, AddressMap.keys]
  generalize t.nodes.entries = l at hnode
  induction l with
  | nil => rfl
  | cons x rest ih =>
    have hrest := ih fun y hy => hnode y (List.mem_cons_of_mem _ hy)
    have hx := hnode x (by simp)
    by_cases hb : a.isPrefixOf x.1 = true <;> simp [hb, hrest, hx]

/-- Of the entry of a known node only what waits for it matters. -/
theorem waitingBelow_put {b : Address} {n' : Node} (h : t.nodes.find? b = some n)
    (hpending : n'.pending = n.pending) (a : Address) :
    (t.put b n').waitingBelow a = t.waitingBelow a := by
  have hentry : (if a.isPrefixOf b then n'.pending.map (b, ·) else []) =
      if a.isPrefixOf b then n.pending.map (b, ·) else [] := by
    rw [hpending]
  rw [waitingBelow_eq, waitingBelow_eq]
  exact AddressMap.flatMap_insert
    (fun b (n : Node) => if a.isPrefixOf b then n.pending.map (b, ·) else []) h hentry

theorem setStall_released (h : t.nodes.find? a = some n) :
    (t.setStall a false).2 = t.waitingBelow a := by
  have hnode := node_of_find? h
  rw [← waitingBelow_put h (congrArg Node.pending hnode), waitingBelow_eq, setStall]
  refine List.flatMap_congr fun x _ => ?_
  by_cases hb : a.isPrefixOf x.1 = true <;> simp [hb, Node.setStall]

/-- Requests that fit are all transmitted, in order. -/
theorem requests_transmitAll {limit : Nat} {l : List (Address × Request)}
    (h : ∀ x ∈ l, x.2.Fits limit x.1) (t : NodeTable) :
    (t.transmitAll l).2.map (fun m => (m.address, m.request)) = l := by
  induction l generalizing t with
  | nil => rfl
  | cons x rest ih =>
    obtain ⟨b, r⟩ := x
    have hr : r.Fits limit b := h (b, r) (by simp)
    have hrest := ih fun y hy => h y (List.mem_cons_of_mem _ hy)
    rw [transmitAll, transmit_eq_put, Node.transmit_eq hr, List.map_append, hrest]
    rfl

end NodeTable

namespace Flow

variable {f : Flow} {m : Message}

/-- A message that frees lets go all that waits for its sender and below. -/
theorem requests_receive {limit : Nat} {n : Node} (hm : m.type = .stall) (hstops : m.stops = false)
    (hknown : f.table.nodes.find? m.address = some n)
    (hfit : ∀ b n, f.table.nodes.find? b = some n → n.PendingFit limit b) :
    (f.receive m).2.map (fun m => (m.address, m.request)) = f.table.waitingBelow m.address := by
  have hobserved : (f.observe m).table.nodes.find? m.address = some (n.observe m.seq).1 := by
    rw [observe_table, NodeTable.find?_put, if_pos rfl, NodeTable.node_of_find? hknown]
    rfl
  have hpending : ((f.table.node m.address).observe m.seq).1.pending = n.pending := by
    rw [NodeTable.node_of_find? hknown, Node.observe]
    split <;> rfl
  have hreleased : ((f.observe m).table.setStall m.address false).2 =
      f.table.waitingBelow m.address := by
    rw [NodeTable.setStall_released hobserved]
    exact NodeTable.waitingBelow_put hknown hpending m.address
  have hreceive : (f.receive m).2 =
      (((f.observe m).table.setStall m.address false).1.transmitAll
        (f.table.waitingBelow m.address)).2 := by
    have hoff : (m.payload.headD 0 != 0) = false := hstops
    rw [← hreleased]
    simp only [receive, hm, if_true, handleStall, hoff]
  have hfits : ∀ x ∈ f.table.waitingBelow m.address, x.2.Fits limit x.1 := by
    intro x hx
    rw [NodeTable.waitingBelow, List.mem_flatMap] at hx
    obtain ⟨b, -, hx⟩ := hx
    obtain ⟨r, hr, rfl⟩ := List.mem_map.1 hx
    cases hb : f.table.nodes.find? b with
    | none => simp [NodeTable.node, hb] at hr
    | some n' =>
      rw [NodeTable.node_of_find? hb] at hr
      exact hfit b n' hb r hr
  rw [hreceive]
  exact NodeTable.requests_transmitAll hfits _

end Flow

/-! ## Episodes on a link -/

namespace Link

/-- What a link becomes that hears `on`, then the rest of the packet, and then carries `ts`. -/
def after (l : Link) (on : Message) (rest : List Message) (ts : List Traffic) : Link :=
  (rest.foldl receive (l.receive on)).carryAll ts

/-- What of it reaches flow control. -/
def episode (on : Message) (rest : List Message) (ts : List Traffic) : List Flow.Input :=
  .receive on :: (rest.map .receive ++ ts.flatMap Traffic.inputs)

theorem after_takes (l : Link) (on : Message) (rest : List Message) (ts : List Traffic) :
    l.Takes (episode on rest ts) (l.after on rest ts) :=
  (l.receive_takes on).trans
    ((foldl_receive_takes _ rest).trans (carryAll_takes _ ts))

/-- In an episode nothing is put into packets for the sender of `on` and the nodes below it. All
that is accepted for them waits, behind what waited before. -/
structure HoldsBack (l : Link) (on : Message) (rest : List Message) (ts : List Traffic) :
    Prop where
  writer : l.writer.Appends ((l.flow.run (episode on rest ts)).2.appended.map Message.layout)
    (l.after on rest ts).writer
  silent : ∀ b, on.address.isPrefixOf b = true →
    sentTo b (l.flow.run (episode on rest ts)).2.appended = []
  queued : ∀ b r receipt, on.address.isPrefixOf b = true →
    ((l.after on rest ts).send b r).2 = .ok receipt → receipt = .queued
  waiting : ∀ b, on.address.isPrefixOf b = true →
    ((l.after on rest ts).flow.table.node b).pending =
      (l.flow.table.node b).pending ++
        valuesAt b (l.flow.run (episode on rest ts)).2.accepted

/-- With `off` all that waits for its sender and the nodes below it is sent, in the order of
addresses and for one node in the order of acceptance, behind the bodies `buffered` that were in the
packet under construction. It is all handed to the sink, in `packets`. -/
structure LetsGo (held : Link) (off : Message) (buffered : List Bytes)
    (packets : List (List Bytes)) : Prop where
  sorted : held.flow.table.knownNodes.Pairwise (· < ·)
  sent : (held.flow.receive off).2.map (fun m => (m.address, m.request)) =
    held.flow.table.waitingBelow off.address
  messages : held.writer.messages = buffered.length
  buffer : held.writer.buffer = if buffered = [] then [] else magic :: escape buffered.flatten
  packed : packets.flatten = buffered ++ (held.flow.receive off).2.map Message.layout ∧
    [] ∉ packets
  attempts : (held.receive off).writer.sink.attempts = held.writer.sink.attempts ++
    packets.zipIdx.map fun x => (Packet.frame x.1.flatten, held.writer.sink.accepts x.2)
  emptied : (held.receive off).writer.messages = 0 ∧ (held.receive off).writer.buffer = []
  freed : ∀ b n, off.address.isPrefixOf b = true →
    (held.receive off).flow.table.nodes.find? b = some n → n.stalled = false ∧ n.pending = []

variable {settings : Nat × UInt8 × Bool} {l held : Link} {on off : Message}
  {rest : List Message} {ts : List Traffic}

/-- As long as no message frees, the node stays stalled with all below it, and is held back. -/
theorem holdsBack_of_quiet (hl : l.flow.Reached settings) (hon : on.type = .stall)
    (hstops : on.stops = true)
    (hquiet : ∀ m, .receive m ∈ rest.map .receive ++ ts.flatMap Traffic.inputs →
      ¬ m.Frees on.address) :
    l.HoldsBack on rest ts ∧ (l.after on rest ts).flow.Shut on.address := by
  have htakes := l.after_takes on rest ts
  have hcalm : .disable ∉ rest.map Flow.Input.receive ++ ts.flatMap Traffic.inputs := by
    have hts := disable_notMem_inputs ts
    simpa using hts
  have hshut := l.flow.shut_of_stops hon hstops
  obtain ⟨hheld, hlater⟩ := hshut.run hquiet hcalm
  have hsilent : ∀ b, on.address.isPrefixOf b = true →
      sentTo b (l.flow.run (episode on rest ts)).2.appended = [] := by
    intro b hb
    have hfirst := Flow.sentTo_of_stalled (by simp) fun n hn => hshut.stalled b n hb hn
    rw [episode, Flow.run_cons, sentTo_append, hfirst, hlater b hb]
    rfl
  have hflow : (l.after on rest ts).flow = ((l.flow.step (.receive on)).1.run
      (rest.map .receive ++ ts.flatMap Traffic.inputs)).1 := by
    rw [htakes.flow, episode, Flow.run_cons]
  rw [← hflow] at hheld
  refine ⟨⟨htakes.writer, hsilent, ?_, ?_⟩, hheld⟩
  · intro b r receipt hb hsend
    exact queued_of_stalled (hheld.node_stalled hb) hsend
  · intro b hb
    have hall : .disable ∉ episode on rest ts := by simpa [episode] using hcalm
    have hpending := Flow.run_pending (a := b) hall fun n hn => hl.limit ▸ hl.pendingFit hn
    rw [hsilent b hb, List.map_nil, List.nil_append] at hpending
    rw [htakes.flow]
    exact hpending

theorem letsGo_of_follows {limit : Nat} {outcome : Nat → Bool} {p : Plan}
    (hheld : held.flow.Reached settings)
    (hknown : (held.flow.table.nodes.find? off.address).isSome)
    (hwriter : held.writer.Follows limit outcome p) (hoff : off.type = .stall)
    (hstops : off.stops = false) : ∃ packets, held.LetsGo off p.current packets := by
  obtain ⟨n, hn⟩ := Option.isSome_iff_exists.1 hknown
  have hcloses : Flow.closesPacket off = true := by
    have hzero : (off.payload.headD 0 != 0) = false := hstops
    simpa [Flow.closesPacket, hoff] using hzero
  have hreceive : held.receive off =
      (held.pack (held.flow.receive off).1 (held.flow.receive off).2).flush := by
    simp only [receive, hcloses, if_true]
  obtain ⟨packets, hbodies, hnonempty, hattempts, hempty, hnone⟩ :=
    hwriter.appendAll_flush ((held.flow.receive off).2.map Message.layout)
  refine ⟨packets, ?_⟩
  constructor
  · exact held.flow.table.knownNodes_sorted
  · exact Flow.requests_receive hoff hstops hn fun b n hb => hheld.pendingFit hb
  · exact hwriter.messages
  · exact hwriter.buffer
  · exact ⟨hbodies, hnonempty⟩
  · rw [hreceive]
    exact hattempts
  · rw [hreceive]
    exact ⟨hempty, hnone⟩
  · intro b n hb hfreed
    have hsignals : off.Signals b := ⟨hoff, hb⟩
    rw [hreceive] at hfreed
    refine ⟨?_, Flow.pending_of_signals hfreed hsignals hstops⟩
    rw [Flow.stalled_of_signals hfreed hsignals, hstops]

/-- A link that something has happened to, on a sink that accepts as `outcome` says. -/
def used (config : Config) (outcome : Nat → Bool) (past : List Event) : Link :=
  (Link.new config { accepts := outcome }).run past

/-- **A stall holds back, and its end lets go.** After a message that stops a node, whatever a link
carries, and as long as no message frees the node, one above it or one below, all that is accepted
for the node and those below it waits and nothing is sent to them. When the node then lets go, all
that waits is sent and handed to the sink at once, node by node in the order of addresses. -/
theorem held_back_then_let_go (config : Config) (outcome : Nat → Bool) (past : List Event)
    (hon : on.type = .stall) (hstops : on.stops = true)
    (hquiet : ∀ m, .receive m ∈ rest.map .receive ++ ts.flatMap Traffic.inputs →
      ¬ m.Frees on.address) :
    (used config outcome past).HoldsBack on rest ts ∧
      ∀ off : Message, off.type = .stall → off.stops = false → off.address = on.address →
        ∃ buffered packets,
          ((used config outcome past).after on rest ts).LetsGo off buffered packets := by
  have hnew : (used config outcome []).flow.Reached (used config outcome []).flow.settings :=
    reached_new config _ []
  have hpast : (used config outcome past).flow.Reached (used config outcome []).flow.settings :=
    reached_run hnew past
  have htakes := (used config outcome past).after_takes on rest ts
  obtain ⟨hholds, hshut⟩ := holdsBack_of_quiet hpast hon hstops hquiet
  refine ⟨hholds, fun off hoff hfrees haddress => ?_⟩
  obtain ⟨calls, hcalls, -⟩ := (packs_run hnew past).trans (packs_of_takes hpast htakes)
  have hwriter := (PacketWriter.follows_fresh config.link.maxPacketSize outcome).performAll calls
  have hfresh : (used config outcome []).writer =
      PacketWriter.fresh config.link.maxPacketSize outcome := rfl
  rw [← hfresh, ← hcalls] at hwriter
  rw [← haddress] at hshut
  exact ⟨_, letsGo_of_follows (reached_of_takes hpast htakes) hshut.known hwriter hoff hfrees⟩

def neighbour : Address := ⟨[2], by decide, by simp⟩

/-- While the child is stopped it answers, the grandchild stops itself too, and the neighbour lets
go. Commands come in for all three. -/
def duringStall : List Traffic :=
  [.send child command, .send grandchild command,
    .handle (.ok [{ address := child, type := ⟨0xB0⟩ }, stallMessage grandchild 1]),
    .handle (.ok [stallMessage neighbour 0]), .send neighbour command]

/-- The child has a command waiting before it stops. When it lets go that command leaves, then the
one that came in meanwhile, then that for the grandchild, all in the packet that was begun with the
command for the neighbour. -/
theorem let_go_with_grandchild :
    ((stallMessage child 1).type = .stall ∧ (stallMessage child 1).stops = true ∧
      ∀ m, .receive m ∈ [].map .receive ++ duringStall.flatMap Traffic.inputs →
        ¬ m.Frees child) ∧
      ((narrow.run [sendCommand, sendCommand]).after (stallMessage child 1) []
        duringStall).flow.table.waitingBelow child =
          [(child, command), (child, command), (grandchild, command)] ∧
      (((narrow.run [sendCommand, sendCommand]).after (stallMessage child 1) []
        duringStall).receive (stallMessage child 0)).writer.sink.attempts[1]? =
          some ([254, 4, 2, 0, 1, 48, 4, 1, 0, 2, 48, 4, 1, 0, 3, 48, 5, 1, 4, 0, 1, 48, 181, 254],
            true) ∧
      ∃ buffered packets,
        ((narrow.run [sendCommand, sendCommand]).after (stallMessage child 1) []
          duringStall).LetsGo (stallMessage child 0) buffered packets := by
  have hon : (stallMessage child 1).type = .stall := rfl
  have hquiet : ∀ m, .receive m ∈ [].map .receive ++ duringStall.flatMap Traffic.inputs →
      ¬ m.Frees child := by
    intro m hm
    simp only [duringStall, Traffic.inputs, List.map_nil, List.nil_append, List.flatMap_cons,
      List.flatMap_nil, List.map_cons, List.append_nil, List.cons_append, List.mem_cons,
      reduceCtorEq, Flow.Input.receive.injEq, List.not_mem_nil, or_false, false_or] at hm
    rcases hm with rfl | rfl | rfl <;> decide
  have hepisode := held_back_then_let_go { flowControl := { defaultCredit := 1 } } (fun _ => true)
    [sendCommand, sendCommand] hon rfl hquiet
  refine ⟨⟨hon, rfl, hquiet⟩, by decide +kernel, by decide +kernel, ?_⟩
  exact hepisode.2 (stallMessage child 0) rfl rfl rfl

end Link
end RailBus
