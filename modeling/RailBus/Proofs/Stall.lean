import RailBus.Proofs.Credit

/-!
# Stalls

A stall message speaks for its sender and for all nodes below it, and the last one that reached a
known node counts. A node that becomes known takes over a stall from above. As long as the flag of
a node is up nothing is sent to it (`sentTo_of_stalled`), and what is accepted for it waits.
-/

namespace RailBus

namespace Node

variable {a : Address} {n : Node} {o : Occurrence}

/-! ## The flag of one node -/

theorem keeps_transmitAll (n : Node) (a : Address) (rs : List Request) :
    (n.transmitAll a rs).1.stalled = n.stalled ∧
      (n.transmitAll a rs).1.pending = n.pending := by
  obtain ⟨_, _, hframe⟩ := n.transmitAll_frame a rs
  rw [hframe]
  exact ⟨rfl, rfl⟩

theorem stalled_meet (n : Node) (a : Address) (o : Occurrence) :
    (n.meet a o).1.stalled = o.flag n.stalled :=
  (keeps_transmitAll _ a _).1.trans (n.regulate_frame o).2

theorem stalled_meetAll_of_quiet {os : List Occurrence}
    (h : ∀ o ∈ os, ∀ stalled, o.flag stalled = stalled) (n : Node) :
    (n.meetAll a os).1.stalled = n.stalled := by
  induction os generalizing n with
  | nil => rfl
  | cons o rest ih =>
    have hrest := ih (fun o ho => h o (List.mem_cons_of_mem _ ho)) (n.meet a o).1
    rw [meetAll_cons, hrest, stalled_meet, h o (by simp)]

/-- Whatever leaves its flag up lets nothing go. -/
theorem released_of_flag (h : o.flag n.stalled = true) (hcalm : o.urgent = []) :
    (n.regulate o).2 = [] := by
  cases o with
  | heard seq => rfl
  | offered r =>
    have hstalled : n.stalled = true := h
    simp [regulate, reserve, hstalled]
  | pushed r => cases hcalm
  | answered =>
    have hstalled : n.settled.stalled = true := h
    simp [regulate_answered, drain, hstalled]
  | reported bytes =>
    have hstalled : n.stalled = true := h
    simp [regulate, learn, drain, hstalled]
  | stalled on =>
    have hon : on = true := h
    rw [hon]
    rfl

theorem sent_of_flag (h : o.flag n.stalled = true) (hcalm : o.urgent = []) :
    (n.meet a o).2 = [] := by
  show ((n.regulate o).1.transmitAll a (n.regulate o).2).2 = []
  rw [released_of_flag h hcalm]
  rfl

/-- A stalled node is sent nothing until a stall message reaches it. -/
theorem sent_of_stalled {os : List Occurrence} (h : n.stalled = true)
    (hflag : ∀ o ∈ os, o.flag true = true) (hcalm : ∀ o ∈ os, o.urgent = []) :
    (n.meetAll a os).2 = [] := by
  induction os generalizing n with
  | nil => rfl
  | cons o rest ih =>
    have hfirst : o.flag n.stalled = true := by
      rw [h]
      exact hflag o (by simp)
    have hrest := ih ((n.stalled_meet a o).trans hfirst)
      (fun o ho => hflag o (List.mem_cons_of_mem _ ho))
      (fun o ho => hcalm o (List.mem_cons_of_mem _ ho))
    rw [meetAll_cons, hrest, sent_of_flag hfirst (hcalm o (by simp))]
    rfl

end Node

/-! ## Stall messages -/

/-- The message stops or frees the node at `d`, its sender or one below. -/
def Message.Signals (m : Message) (d : Address) : Prop :=
  m.type = .stall ∧ m.address.isPrefixOf d

/-- Whether a stall message stops or frees. -/
def Message.stops (m : Message) : Bool := m.payload.headD 0 != 0

namespace NodeTable

variable {t : NodeTable} {a d : Address} {n : Node}

theorem isStalled_iff :
    t.isStalled a = true ↔ ∃ n, t.nodes.find? a = some n ∧ n.stalled = true := by
  simp [isStalled, Option.any_eq_true]

/-- A node that is not known yet will be stalled if a known one above it is. -/
theorem inheritsStall_iff :
    t.inheritsStall d = true ↔ ∃ a, t.isStalled a = true ∧ a.isAncestorOf d = true := by
  simp only [inheritsStall, List.any_eq_true, Bool.and_eq_true, isStalled_iff]
  constructor
  · rintro ⟨⟨a, n⟩, hmem, hstalled, habove⟩
    exact ⟨a, ⟨n, AddressMap.find?_of_mem hmem, hstalled⟩, habove⟩
  · rintro ⟨a, ⟨n, hn, hstalled⟩, habove⟩
    exact ⟨(a, n), AddressMap.mem_of_find? hn, hstalled, habove⟩

theorem stalled_node_of_unknown (h : t.nodes.find? d = none) :
    (t.node d).stalled = t.inheritsStall d := by
  simp [node, h]

/-- Where a node is stalled, or would be, one above another, a known one is. -/
theorem exists_stalled_above (h : (t.node a).stalled = true) (had : a.isAncestorOf d) :
    ∃ x, t.isStalled x = true ∧ x.isAncestorOf d = true := by
  cases hn : t.nodes.find? a with
  | some n =>
    rw [node_of_find? hn] at h
    exact ⟨a, isStalled_iff.2 ⟨n, hn, h⟩, had⟩
  | none =>
    rw [stalled_node_of_unknown hn] at h
    obtain ⟨x, hx, hxa⟩ := inheritsStall_iff.1 h
    exact ⟨x, hx, Address.isAncestorOf_of_isPrefixOf hxa (Address.isPrefixOf_of_isAncestorOf had)⟩

end NodeTable

namespace Flow

/-- The input is a stall message that reaches the node at `d`. -/
def Input.Signals (d : Address) : Input → Prop
  | .receive m => m.Signals d
  | _ => False

variable {f : Flow} {i : Input} {m : Message} {d : Address} {n : Node}

theorem Input.Signals.receive (h : i.Signals d) : ∃ m, i = .receive m ∧ m.Signals d := by
  cases i with
  | receive m => exact ⟨m, rfl, h⟩
  | send a r => exact absurd h id
  | disable => exact absurd h id

theorem Input.Signals.below {a : Address} (h : i.Signals a) (had : a.isPrefixOf d) :
    i.Signals d := by
  obtain ⟨m, rfl, hm⟩ := h.receive
  exact ⟨hm.1, Address.isPrefixOf_trans hm.2 had⟩

/-! ## The flags in a step -/

theorem flag_of_mem_occurrences {o : Occurrence} (h : o ∈ f.occurrences d i) (hi : ¬ i.Signals d)
    (stalled : Bool) : o.flag stalled = stalled := by
  cases i with
  | send a r =>
    simp only [occurrences] at h
    split at h
    · rw [(of_mem_offers h).1]; rfl
    · cases h
  | receive m =>
    simp only [occurrences] at h
    split at h
    case isTrue ha =>
      rcases List.mem_cons.1 h with rfl | h
      · rfl
      · split at h
        case isTrue hm => exact absurd ⟨hm, ha ▸ m.address.isPrefixOf_self⟩ hi
        case isFalse =>
          rcases List.mem_append.1 h with h | h
          · obtain ⟨bytes, rfl⟩ | ⟨rfl, -⟩ := of_mem_reactions h <;> rfl
          · rw [(of_mem_answers h).1]; rfl
    case isFalse =>
      split at h
      case isTrue hm => exact absurd ⟨hm.1, hm.2.1⟩ hi
      case isFalse => cases h
  | disable =>
    simp only [occurrences] at h
    split at h
    · split at h
      · rw [List.mem_singleton.1 h]; rfl
      · cases h
    · cases h

/-- A stall message is heard from its sender, and changes the flags of the known nodes it
reaches. -/
theorem occurrences_of_signals (h : m.Signals d) :
    f.occurrences d (.receive m) =
      if m.address = d then [.heard m.seq, .stalled m.stops]
      else if (f.table.nodes.find? d).isSome then [.stalled m.stops] else [] := by
  have hsignal : signal m = .stalled m.stops := rfl
  simp only [occurrences, h.1, h.2, if_true, true_and, hsignal]

theorem find?_step (f : Flow) (i : Input) (d : Address) :
    (f.step i).1.table.nodes.find? d =
      if f.occurrences d i = [] then f.table.nodes.find? d
      else some ((f.table.node d).meetAll d (f.occurrences d i)).1 :=
  (f.step_actsAs i d).1

theorem sentTo_step (f : Flow) (i : Input) (d : Address) :
    sentTo d (f.step i).2 = ((f.table.node d).meetAll d (f.occurrences d i)).2 :=
  (f.step_actsAs i d).2

theorem known_step (h : (f.table.nodes.find? d).isSome) (i : Input) :
    ((f.step i).1.table.nodes.find? d).isSome := by
  rw [find?_step]
  split
  · exact h
  · rfl

/-- A known node is, after an input, what its occurrences made of it. -/
theorem node_of_step (h : (f.step i).1.table.nodes.find? d = some n) :
    n = ((f.table.node d).meetAll d (f.occurrences d i)).1 := by
  rw [find?_step] at h
  split at h
  case isTrue hnone =>
    rw [hnone, NodeTable.node_of_find? h]
    rfl
  case isFalse => exact (Option.some.inj h).symm

/-- A message leaves all entries alone but its sender's and those of the nodes it stops or frees. -/
theorem find?_receive_of_other (hne : m.address ≠ d) (hm : ¬ m.Signals d) :
    (f.step (.receive m)).1.table.nodes.find? d = f.table.nodes.find? d := by
  have hocc : f.occurrences d (.receive m) = [] := by
    have hno : ¬ (m.type = .stall ∧ m.address.isPrefixOf d) := hm
    simp only [occurrences, hne, if_false, ← and_assoc, hno, false_and]
  rw [find?_step, hocc, if_pos rfl]

theorem stalled_of_quiet (h : (f.step i).1.table.nodes.find? d = some n) (hi : ¬ i.Signals d) :
    n.stalled = (f.table.node d).stalled := by
  rw [node_of_step h]
  exact Node.stalled_meetAll_of_quiet (fun o ho => flag_of_mem_occurrences ho hi) _

/-- A known node has met the stall message last that reached it. -/
theorem exists_meet_of_signals (h : (f.step (.receive m)).1.table.nodes.find? d = some n)
    (hm : m.Signals d) : ∃ n₀ : Node, n = (n₀.meet d (.stalled m.stops)).1 := by
  have hn := node_of_step h
  rw [occurrences_of_signals hm] at hn
  split at hn
  · rw [Node.meetAll_cons, Node.meetAll_singleton] at hn
    exact ⟨_, hn⟩
  · split at hn
    · rw [Node.meetAll_singleton] at hn
      exact ⟨_, hn⟩
    case isFalse hne hunknown =>
      -- a node that is not known yet is not made known by a message from above
      rw [find?_step, occurrences_of_signals hm, if_neg hne, if_neg hunknown, if_pos rfl] at h
      rw [h] at hunknown
      exact absurd rfl hunknown

theorem stalled_of_signals (h : (f.step (.receive m)).1.table.nodes.find? d = some n)
    (hm : m.Signals d) : n.stalled = m.stops := by
  obtain ⟨n₀, rfl⟩ := exists_meet_of_signals h hm
  rw [Node.stalled_meet]
  rfl

/-- Nothing waits any more for a node that was let go. -/
theorem pending_of_signals (h : (f.step (.receive m)).1.table.nodes.find? d = some n)
    (hm : m.Signals d) (hstops : m.stops = false) : n.pending = [] := by
  obtain ⟨n₀, rfl⟩ := exists_meet_of_signals h hm
  rw [hstops]
  exact (Node.keeps_transmitAll _ d _).2

/-- Nothing is sent to a node that is stalled after the input. -/
theorem sentTo_of_stalled (hi : i ≠ .disable)
    (h : ∀ n, (f.step i).1.table.nodes.find? d = some n → n.stalled = true) :
    sentTo d (f.step i).2 = [] := by
  have hcalm : ∀ o ∈ f.occurrences d i, o.urgent = [] := fun o ho =>
    (of_mem_occurrences ho).2.1 hi
  rw [sentTo_step]
  by_cases hnone : f.occurrences d i = []
  · rw [hnone]
    rfl
  · have hentry := f.find?_step i d
    rw [if_neg hnone] at hentry
    have hstalled := h _ hentry
    by_cases hsignal : i.Signals d
    · obtain ⟨m, rfl, hm⟩ := hsignal.receive
      -- being heard releases nothing, and neither does a message that stops
      have hstops : m.stops = true := by rw [← stalled_of_signals hentry hm, hstalled]
      have hon : ∀ n : Node, (n.meet d (.stalled m.stops)).2 = [] := fun n =>
        Node.sent_of_flag hstops rfl
      rw [occurrences_of_signals hm]
      split
      · obtain ⟨last, hheard⟩ := (f.table.node d).meet_heard d m.seq
        rw [Node.meetAll_cons, hheard, Node.meetAll_singleton, hon]
        rfl
      · split
        · rw [Node.meetAll_singleton, hon]
        · rfl
    · have hbefore : (f.table.node d).stalled = true := by
        rw [← stalled_of_quiet hentry hsignal, hstalled]
      exact Node.sent_of_stalled hbefore (fun o ho => flag_of_mem_occurrences ho hsignal true) hcalm

/-- What is accepted for a stalled node waits, whether the node is known or not. -/
theorem queued_of_stalled {r : Request} {g : Flow} {receipt : Receipt} {sent : List Message}
    (hd : (f.table.node d).stalled = true) (h : f.send d r = .ok (g, receipt, sent)) :
    receipt = .queued := by
  cases hc : f.checkFits d r with
  | error e =>
    rw [send_eq_error hc] at h
    cases h
  | ok u =>
    rw [send_eq_ok_of_fits hc] at h
    simp only [accept, NodeTable.reserve, NodeTable.update_eq_put, Node.reserve, hd, Bool.true_or,
      if_true, Bool.false_eq_true, if_false] at h
    cases h
    rfl

end Flow

namespace Link

theorem queued_of_stalled {l : Link} {d : Address} {r : Request} {receipt : Receipt}
    (hd : (l.flow.table.node d).stalled = true) (h : (l.send d r).2 = .ok receipt) :
    receipt = .queued := by
  simp only [send] at h
  split at h
  · cases h
  case h_2 g receipt' sent hs =>
    cases h
    exact Flow.queued_of_stalled hd hs

/-- A node below the child. -/
def grandchild : Address := ⟨[1, 4], by decide, by simp⟩

def stallMessage (a : Address) (on : UInt8) : Message :=
  { address := a, type := .stall, payload := [on] }

end Link
end RailBus
