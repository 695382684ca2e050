import RailBus.Proofs.Credit
import RailBus.Proofs.Delivery
import RailBus.Proofs.Order

/-!
# Which answer belongs to which request

A node's answers settle its outstanding requests from the oldest on, and requests become outstanding
in the order they are transmitted in. So its answers carry the action ids of the first requests
transmitted to it, and the others are outstanding (`answers_follow_requests`). This holds although
a report of the buffer size lets requests go before it counts as an answer itself: where it comes
with nothing outstanding, nothing waits that it could let go (`Node.AtRest`).
-/

namespace RailBus

namespace Node

variable {a : Address} {n : Node}

/-! ## Requests become outstanding -/

theorem outstanding_transmit (n : Node) (a : Address) (r : Request) :
    (n.transmit a r).1.outstanding = n.outstanding ++ awaited (n.transmit a r).2 := by
  cases hf : (r.toMessage a (nextSeq n.lastSeq)).fits <;> cases hc : r.consumesCredit <;>
    simp [transmit, nextNumber, hf, hc, await, awaited]

theorem outstanding_transmitAll (n : Node) (a : Address) (rs : List Request) :
    (n.transmitAll a rs).1.outstanding = n.outstanding ++ awaited (n.transmitAll a rs).2 := by
  induction rs generalizing n with
  | nil => simp [transmitAll, awaited]
  | cons r rest ih =>
    rw [transmitAll, ih, outstanding_transmit, awaited_append, List.append_assoc]

/-- Only an answer settles a request. -/
theorem outstanding_regulate (n : Node) {o : Occurrence} (ho : o ≠ .answered) :
    (n.regulate o).1.outstanding = n.outstanding := by
  rw [regulate_eq_note]
  cases o with
  | answered => exact absurd rfl ho
  | _ => rfl

theorem outstanding_meet (n : Node) (a : Address) {o : Occurrence} (ho : o ≠ .answered) :
    (n.meet a o).1.outstanding = n.outstanding ++ awaited (n.meet a o).2 := by
  rw [meet, outstanding_transmitAll, outstanding_regulate n ho]

theorem outstanding_meet_answered (n : Node) (a : Address) :
    (n.meet a .answered).1.outstanding = n.outstanding.tail ++ awaited (n.meet a .answered).2 := by
  have hsettled : (n.regulate .answered).1.outstanding = n.outstanding.tail := by
    rw [regulate_eq_note]
    rfl
  rw [meet, outstanding_transmitAll, hsettled]

theorem outstanding_meetAll {os : List Occurrence} (n : Node) (a : Address)
    (hos : .answered ∉ os) :
    (n.meetAll a os).1.outstanding = n.outstanding ++ awaited (n.meetAll a os).2 := by
  induction os generalizing n with
  | nil => simp [meetAll, awaited]
  | cons o rest ih =>
    rw [List.mem_cons, not_or] at hos
    rw [meetAll_cons, ih _ hos.2, outstanding_meet n a (Ne.symm hos.1), awaited_append,
      List.append_assoc]

/-! ## Nothing outstanding -/

/-- Unless it is stalled, a node with nothing outstanding has nothing that waits. -/
def AtRest (n : Node) : Prop := n.outstanding = [] → n.stalled = true ∨ n.pending = []

theorem Balanced.atRest (hbalanced : n.Balanced) (hblocked : n.Blocked) : n.AtRest := by
  intro hnone
  cases hp : n.pending with
  | nil => exact .inr rfl
  | cons r rest =>
    left
    rcases hblocked r rest hp with hs | ⟨-, hcredit⟩
    · exact hs
    · have hinUse := hbalanced.inUse
      have hpos : 1 ≤ n.capacity.toNat := UInt8.le_iff_toNat_le.1 hbalanced.capacity
      rw [hnone, List.length_nil] at hinUse
      rw [credit] at hcredit
      omega

theorem atRest_of_history {limit : Nat} {credit : UInt8} {stalled : Bool} {os : List Occurrence}
    (hcredit : 1 ≤ credit) (ho : ∀ o ∈ os, o.Permitted limit a) :
    ((fresh credit stalled).meetAll a os).1.AtRest := by
  have hsound : _ ∧ ((fresh credit stalled).meetAll a os).1.PendingFit limit a :=
    sound_of_history hcredit ho
  exact hsound.1.1.atRest hsound.1.2

theorem drain_atRest (h : n.stalled = true ∨ n.pending = []) : n.drain.2 = [] := by
  rcases h with hs | hp
  · simp [drain, hs]
  · cases hs : n.stalled <;> simp [drain, hs, hp, admissible]

/-- A report of the buffer size lets nothing go where nothing is outstanding. -/
theorem AtRest.reported (h : n.AtRest) (hnone : n.outstanding = []) (a : Address) (bytes : UInt8) :
    (n.meet a (.reported bytes)).2 = [] := by
  have hdrained : (n.regulate (.reported bytes)).2 = [] := drain_atRest (h hnone)
  show ((n.regulate (.reported bytes)).1.transmitAll a (n.regulate (.reported bytes)).2).2 = []
  rw [hdrained]
  rfl

end Node

namespace Flow

variable {f : Flow} {m : Message} {a : Address}

/-! ## The answered request -/

theorem type_ne_stall (hm : settles m = true) : m.type ≠ .stall := by
  intro h
  simp [settles, h, MessageType.isSpontaneous] at hm

theorem settles_eq_false
    (hm : m.type ∈ [.stall, .nodeNew, .nodeLost] ∨ m.type.isDownlink = true) :
    settles m = false := by
  rcases hm with hm | hm
  · simp [settles, MessageType.isSpontaneous, hm]
  · simp only [MessageType.isDownlink, Bool.not_eq_true'] at hm
    simp [settles, hm]

theorem reactions_of_settles (f : Flow) (hm : settles m = true) :
    f.reactions m = [] ∨ ∃ bytes, f.reactions m = [.reported bytes] := by
  have hspontaneous : m.type.isSpontaneous = false := by
    simp only [settles, Bool.and_eq_true, Bool.not_eq_true'] at hm
    exact hm.2
  have hchange : ¬ (m.type = .nodeNew ∨ m.type = .nodeLost) := by
    rintro (h | h) <;> simp [MessageType.isSpontaneous, h] at hspontaneous
  rw [reactions, if_neg hchange]
  split
  · split
    · exact .inl rfl
    · split
      · exact .inr ⟨_, rfl⟩
      · exact .inl rfl
  · exact .inl rfl

theorem answered_notMem_reactions (f : Flow) (m : Message) : .answered ∉ f.reactions m := by
  intro h
  obtain ⟨bytes, h⟩ | ⟨h, -⟩ := of_mem_reactions h <;> cases h

/-- The node of a message that has been heard and reacted to, and what was sent to it by then. -/
def reacted (f : Flow) (m : Message) : Node × List Message :=
  (f.table.node m.address).meetAll m.address (.heard m.seq :: f.reactions m)

theorem outstanding_reacted (f : Flow) (m : Message) :
    (f.reacted m).1.outstanding =
      (f.table.node m.address).outstanding ++ awaited (f.reacted m).2 := by
  refine Node.outstanding_meetAll _ _ fun h => ?_
  rw [List.mem_cons] at h
  rcases h with h | h
  · cases h
  · exact f.answered_notMem_reactions m h

theorem reacted_atRest (hm : settles m = true) (hrest : (f.table.node m.address).AtRest)
    (hnone : (f.table.node m.address).outstanding = []) : (f.reacted m).2 = [] := by
  obtain ⟨last, hheard⟩ := (f.table.node m.address).meet_heard m.address m.seq
  rw [reacted, Node.meetAll_cons, hheard]
  rcases f.reactions_of_settles hm with h | ⟨bytes, h⟩
  · rw [h]
    rfl
  · rw [h, Node.meetAll_singleton, List.nil_append]
    exact Node.AtRest.reported (n := { f.table.node m.address with lastReceived := last })
      hrest hnone _ bytes

/-- The request that was outstanding for longest when an answer came is the one it settles. -/
theorem head?_outstanding_reacted (hm : settles m = true)
    (hrest : (f.table.node m.address).AtRest) :
    (f.reacted m).1.outstanding.head? = (f.table.node m.address).outstanding.head? := by
  rw [outstanding_reacted]
  cases hold : (f.table.node m.address).outstanding with
  | nil => rw [reacted_atRest hm hrest hold]; rfl
  | cons o rest => rfl

theorem delivered_answer (hm : settles m = true) (hrest : (f.table.node m.address).AtRest) :
    f.delivered (.receive m) =
      [⟨{ m with action := (f.table.node m.address).outstanding.head?.bind (·.action) },
        !(f.table.node m.address).outstanding.isEmpty⟩] := by
  have htable : ((f.observe m).react m).1.table = f.table.put m.address (f.reacted m).1 :=
    ((f.observe m).react_put m (f.observe_table m)).1
  rw [delivered, if_neg (type_ne_stall hm), ← head?_outstanding_reacted hm hrest]
  simp [settle, hm, htable, NodeTable.release, NodeTable.update_eq_put, Node.release]

/-! ## One input -/

/-- The request to `a` that an input settles. -/
def settled (f : Flow) (a : Address) : Input → List Outstanding
  | .receive m =>
    if m.address = a ∧ settles m = true then (f.table.node a).outstanding.head?.toList else []
  | .send _ _ | .disable => []

/-- The answers from `a` that came while a request was outstanding, or while none was. -/
def answersFrom (a : Address) (awaited : Bool) (ds : List Delivery) : List Message :=
  (ds.filter fun d => d.message.address = a ∧ settles d.message = true ∧ d.awaited = awaited).map
    (·.message)

theorem answersFrom_append (a : Address) (awaited : Bool) (ds ds' : List Delivery) :
    answersFrom a awaited (ds ++ ds') = answersFrom a awaited ds ++ answersFrom a awaited ds' := by
  simp [answersFrom]

theorem answered_notMem_occurrences {i : Input}
    (hi : ∀ m, i = .receive m → m.address = a → settles m = false) :
    .answered ∉ f.occurrences a i := by
  intro h
  obtain ⟨m, rfl, ha, hm⟩ := (of_mem_occurrences h).2.2 rfl
  rw [hi m rfl ha] at hm
  cases hm

theorem outstanding_node_step (f : Flow) (i : Input) (a : Address) :
    ((f.step i).1.table.node a).outstanding =
      ((f.table.node a).meetAll a (f.occurrences a i)).1.outstanding := by
  have hentry := (f.step_actsAs i a).1
  rw [NodeTable.outstanding_node, hentry]
  split
  case isTrue hnone => rw [hnone, ← NodeTable.outstanding_node]; rfl
  case isFalse => rfl

/-- What settles no request leaves all outstanding ones so. -/
theorem outstanding_step_of_other {i : Input}
    (hi : ∀ m, i = .receive m → m.address = a → settles m = false) :
    ((f.step i).1.table.node a).outstanding =
      (f.table.node a).outstanding ++ awaited (sentTo a (f.step i).2) := by
  rw [outstanding_node_step, Node.outstanding_meetAll _ _ (answered_notMem_occurrences hi),
    (f.step_actsAs i a).2]

/-- An answer settles what was outstanding for longest, and comes before what it lets go. -/
theorem outstanding_step_answer (hm : settles m = true)
    (hrest : (f.table.node m.address).AtRest) :
    (f.table.node m.address).outstanding.head?.toList ++
        ((f.step (.receive m)).1.table.node m.address).outstanding =
      (f.table.node m.address).outstanding ++
        awaited (sentTo m.address (f.step (.receive m)).2) := by
  have hoccurrences : f.occurrences m.address (.receive m) =
      (.heard m.seq :: f.reactions m) ++ [.answered] := by
    simp [occurrences, type_ne_stall hm, answers, hm]
  have hsent := (f.step_actsAs (.receive m) m.address).2
  rw [hoccurrences, Node.meetAll_append, Node.meetAll_singleton] at hsent
  rw [outstanding_node_step, hsent, hoccurrences, Node.meetAll_append, Node.meetAll_singleton,
    Node.outstanding_meet_answered, awaited_append]
  show _ ++ ((f.reacted m).1.outstanding.tail ++ _) = _ ++ (awaited (f.reacted m).2 ++ _)
  rw [outstanding_reacted]
  cases hold : (f.table.node m.address).outstanding with
  | nil => rw [reacted_atRest hm hrest hold]; rfl
  | cons o rest => simp

/-- Requests that are outstanding are settled in order, and those that are sent come behind them. -/
theorem outstanding_step (hrest : (f.table.node a).AtRest) (i : Input) :
    f.settled a i ++ ((f.step i).1.table.node a).outstanding =
      (f.table.node a).outstanding ++ awaited (sentTo a (f.step i).2) := by
  by_cases hanswer : ∃ m, i = .receive m ∧ m.address = a ∧ settles m = true
  · obtain ⟨m, rfl, rfl, hm⟩ := hanswer
    rw [settled, if_pos ⟨rfl, hm⟩]
    exact outstanding_step_answer hm hrest
  · have hother : ∀ m, i = .receive m → m.address = a → settles m = false := by
      intro m hi ha
      exact Bool.eq_false_iff.2 fun hm => hanswer ⟨m, hi, ha, hm⟩
    have hnone : f.settled a i = [] := by
      cases i with
      | receive m => exact if_neg fun h => hanswer ⟨m, rfl, h⟩
      | send b r => rfl
      | disable => rfl
    rw [hnone, List.nil_append, outstanding_step_of_other hother]

/-- An answer carries the action id of the request that it settles, or none. -/
theorem action_of_settled (hrest : ∀ b, (f.table.node b).AtRest) (i : Input) :
    (f.settled a i).map (·.action) = (answersFrom a true (f.delivered i)).map (·.action) ∧
      ∀ m ∈ answersFrom a false (f.delivered i), m.action = none := by
  cases i with
  | send b r => simp [settled, delivered, answersFrom]
  | disable => simp [settled, delivered, answersFrom]
  | receive m =>
    cases hm : settles m with
    | false =>
      by_cases hstall : m.type = .stall
      · simp [settled, delivered, answersFrom, hm, hstall]
      · simp [settled, delivered_other hm hstall, answersFrom, hm]
    | true =>
      have hsettles : ∀ action, settles { m with action := action } = true := fun _ => hm
      rw [delivered_answer hm (hrest m.address)]
      by_cases ha : m.address = a
      · subst ha
        cases hold : (f.table.node m.address).outstanding <;>
          simp [settled, answersFrom, hm, hold, hsettles]
      · simp [settled, answersFrom, ha]

/-! ## Runs -/

theorem Reached.atRest {settings : Nat × UInt8 × Bool} (h : f.Reached settings)
    (hcredit : 1 ≤ settings.2.1) (a : Address) : (f.table.node a).AtRest := by
  obtain ⟨f₀, is, hempty, rfl, rfl⟩ := h
  rcases run_unknown is (hempty a) with ⟨hnone, -, -⟩ | ⟨stalled, os, hos⟩
  · intro _
    right
    simp [NodeTable.node, hnone]
  · rw [NodeTable.node_of_find? hos.entry]
    exact Node.atRest_of_history hcredit hos.permitted

/-- Over a run the requests `done` to `a` are settled, oldest first, and the answers carry their
action ids. -/
structure Matches (f : Flow) (is : List Input) (a : Address) (done : List Outstanding) :
    Prop where
  outstanding : done ++ ((f.run is).1.table.node a).outstanding =
    (f.table.node a).outstanding ++ awaited (sentTo a (f.run is).2.appended)
  action : done.map (·.action) = (answersFrom a true (f.deliveries is)).map (·.action)
  unmatched : ∀ m ∈ answersFrom a false (f.deliveries is), m.action = none

theorem Matches.cons {i : Input} {is : List Input} {done : List Outstanding}
    (hrest : ∀ b, (f.table.node b).AtRest) (h : Matches (f.step i).1 is a done) :
    Matches f (i :: is) a (f.settled a i ++ done) := by
  obtain ⟨haction, hunmatched⟩ := action_of_settled (a := a) hrest i
  constructor
  · rw [run_cons, sentTo_append, awaited_append, ← List.append_assoc, ← outstanding_step (hrest a),
      List.append_assoc, List.append_assoc, h.outstanding]
  · rw [deliveries, answersFrom_append, List.map_append, List.map_append, haction, h.action]
  · intro m hm
    rw [deliveries, answersFrom_append, List.mem_append] at hm
    exact hm.elim (hunmatched m) (h.unmatched m)

theorem run_matches {settings : Nat × UInt8 × Bool} (h : f.Reached settings)
    (hcredit : 1 ≤ settings.2.1) (is : List Input) (a : Address) : ∃ done, f.Matches is a done := by
  induction is generalizing f with
  | nil => exact ⟨[], by simp [run, awaited], rfl, by simp [deliveries, answersFrom]⟩
  | cons i rest ih =>
    obtain ⟨done, hdone⟩ := ih (h.run [i])
    exact ⟨_, hdone.cons (h.atRest hcredit)⟩

end Flow

namespace Link

/-- The requests put into packets for `a` while `ts` was carried that are to be answered. -/
def requests (l : Link) (ts : List Traffic) (a : Address) : List Outstanding :=
  awaited (sentTo a (l.ledger ts).appended)

/-- The answers from `a` that came while a request was outstanding, or while none was. -/
def answers (l : Link) (ts : List Traffic) (a : Address) (awaited : Bool) : List Message :=
  Flow.answersFrom a awaited (l.deliveries ts)

/-- The answers of the node at `a` are to its requests, in order. -/
structure Correlates (l : Link) (ts : List Traffic) (a : Address) : Prop where
  /-- one action id for each answer, those of the first requests -/
  action : (l.answers ts a true).map (·.action) =
    ((l.requests ts a).take (l.answers ts a true).length).map (·.action)
  outstanding : ((l.carryAll ts).flow.table.node a).outstanding =
    (l.requests ts a).drop (l.answers ts a true).length
  unmatched : ∀ m ∈ l.answers ts a false, m.action = none
  /-- what is no answer settles no request, whichever node it comes from -/
  kept : ∀ m : Message, m.type ∈ [.stall, .nodeNew, .nodeLost] ∨ m.type.isDownlink = true →
    (((l.carryAll ts).receive m).flow.table.node a).outstanding =
      ((l.carryAll ts).flow.table.node a).outstanding ++
        (l.carryAll ts).requests [.handle (.ok [m])] a

theorem receive_kept (l : Link) (a : Address) {m : Message}
    (hm : m.type ∈ [.stall, .nodeNew, .nodeLost] ∨ m.type.isDownlink = true) :
    ((l.receive m).flow.table.node a).outstanding =
      (l.flow.table.node a).outstanding ++ l.requests [.handle (.ok [m])] a := by
  have hother : ∀ m', Flow.Input.receive m = .receive m' → m'.address = a →
      Flow.settles m' = false := by
    rintro m' ⟨⟩ -
    exact Flow.settles_eq_false hm
  have hledger : l.requests [.handle (.ok [m])] a =
      awaited (sentTo a (l.flow.step (.receive m)).2) := by
    simp [requests, ledger, Traffic.inputs, Flow.run]
  rw [(l.receive_takes m).flow, hledger]
  exact Flow.outstanding_step_of_other hother

/-- **Answers follow requests.** Whatever traffic a link carries since it was new or reset, the
answers of each node that come while something is outstanding carry the action ids of the first
requests its writer was given for that node, one each and in order, and the other requests are
outstanding. An answer with nothing outstanding carries no action id. -/
theorem answers_follow_requests (config : Config) (sink : Sink) (past : List Event)
    (ts : List Traffic) :
    (begun config sink past).writer.Appends
        (((begun config sink past).ledger ts).appended.map Message.layout)
        ((begun config sink past).carryAll ts).writer ∧
      (begun config sink past).Delivers ts ∧
      ∀ a, (begun config sink past).Correlates ts a := by
  have htakes := (begun config sink past).carryAll_takes ts
  have hreached : (begun config sink past).flow.Reached
      (Link.new config sink).flow.settings :=
    reached_step (reached_new config sink past) .reset
  refine ⟨htakes.writer, delivers rfl rfl ts, fun a => ?_⟩
  · obtain ⟨done, hdone⟩ := Flow.run_matches hreached (Node.one_le_max _)
      (ts.flatMap Traffic.inputs) a
    have hlength : done.length = ((begun config sink past).answers ts a true).length := by
      have h := congrArg List.length hdone.action
      rw [List.length_map, List.length_map] at h
      exact h
    have hrequests :
        done ++ (((begun config sink past).carryAll ts).flow.table.node a).outstanding =
          (begun config sink past).requests ts a := by
      rw [htakes.flow]
      exact hdone.outstanding
    constructor
    · rw [← hlength, ← hrequests, List.take_left]
      exact hdone.action.symm
    · rw [← hlength, ← hrequests, List.drop_left]
    · exact hdone.unmatched
    · exact fun m hm => receive_kept _ a hm

/-- One of three commands may be unanswered at a time, until the node reports that it can buffer
two; the report is the answer to the first. -/
example :
    let l := begun { flowControl := { defaultCredit := 1 } } {} []
    let ts : List Traffic :=
      [.send child { command with action := some 1 },
        .send child { command with action := some 2 },
        .send child { command with action := some 3 },
        .handle (.ok [{ address := child, type := .pktCapacity, payload := [8] }]),
        .handle (.ok [{ address := child, type := ⟨0xB0⟩ }])]
    (l.answers ts child true).map (·.action) = [some 1, some 2] ∧
      ((l.carryAll ts).flow.table.node child).outstanding.map (·.action) = [some 3] := by
  decide

end Link
end RailBus
