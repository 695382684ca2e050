import RailBus.Session
import RailBus.Proofs.Address
import RailBus.Proofs.Message
import RailBus.Proofs.NodeTable

/-!
# Flow control, seen from one node

Whatever reaches flow control means a few occurrences for each node, and does to a node's entry
and sends to that node exactly what these make of it alone (`step_actsAs`). What holds of one node
under every occurrence so holds of all nodes under every input.
-/

namespace RailBus

namespace Flow

/-! ## Inputs -/

/-- What reaches flow control. -/
inductive Input
  | send (a : Address) (r : Request)
  | receive (m : Message)
  /-- a session ends -/
  | disable

/-- What becomes of flow control, and what it transmits. -/
def step (f : Flow) : Input → Flow × List Message
  | .send a r =>
    match f.send a r with
    | .ok (f, _, sent) => (f, sent)
    | .error _ => (f, [])
  | .receive m => f.receive m
  | .disable =>
    match f.sendUnchecked .root Session.disableRequest with
    | .ok (f, _, sent) => (f, sent)
    | .error _ => (f, [])

/-- The messages accepted for sending, the acknowledgement of a node change among them. -/
def accepted (f : Flow) : Input → List (Address × Request)
  | .send a r =>
    match f.send a r with
    | .ok _ => [(a, r)]
    | .error _ => []
  | .receive m =>
    if m.type = .nodeNew ∨ m.type = .nodeLost then
      match (f.observe m).send m.address (changeAck m) with
      | .ok _ => [(m.address, changeAck m)]
      | .error _ => []
    else []
  | .disable => []

/-! ## What an input means for a node -/

/-- A message that fits is offered to its node. -/
def offers (f : Flow) (a : Address) (r : Request) : List Occurrence :=
  match f.checkFits a r with
  | .ok () => [.offered r]
  | .error _ => []

def reactions (f : Flow) (m : Message) : List Occurrence :=
  if m.type = .pktCapacity then
    match m.payload with
    | [] => []
    | bytes :: _ => if f.table.honorReports && bytes != 0 then [.reported bytes] else []
  else if m.type = .nodeNew ∨ m.type = .nodeLost then f.offers m.address (changeAck m)
  else []

def answers (m : Message) : List Occurrence := if settles m then [.answered] else []

/-- The stall signal of a message. -/
def signal (m : Message) : Occurrence := .stalled (m.payload.headD 0 != 0)

/-- What an input means for the node at `a`. Of another node's message only a stall above a known
node concerns it. -/
def occurrences (f : Flow) (a : Address) : Input → List Occurrence
  | .send b r => if b = a then f.offers a r else []
  | .receive m =>
    if m.address = a then
      .heard m.seq :: (if m.type = .stall then [signal m] else f.reactions m ++ answers m)
    else if m.type = .stall ∧ m.address.isPrefixOf a ∧ (f.table.nodes.find? a).isSome then
      [signal m]
    else []
  | .disable =>
    if .root = a then
      match f.checkFits a Session.disableRequest with
      | .ok () => [.pushed Session.disableRequest]
      | .error _ => []
    else []

/-! ## Inputs act on a node as their occurrences -/

theorem checkFits_eq_ok_iff (f : Flow) (a : Address) (r : Request) :
    f.checkFits a r = .ok () ↔ r.Fits f.limit a := by
  unfold checkFits Request.Fits
  cases hf : (r.toMessage a magic).fits with
  | false => simp [Message.encode_of_not_fits hf]
  | true =>
    simp only [Message.encode_of_fits hf, true_and]
    split <;> simp [*]

theorem accept_eq (f : Flow) (a : Address) (r : Request) :
    (f.accept a r).1.table = f.table.put a ((f.table.node a).meet a (.offered r)).1 ∧
      (f.accept a r).2.2 = ((f.table.node a).meet a (.offered r)).2 := by
  obtain ⟨h, -⟩ | ⟨h, -⟩ := (f.table.node a).reserve_cases r.consumesCredit
  · simp [accept, NodeTable.reserve, NodeTable.update_eq_put, NodeTable.transmit_eq_put, Node.meet,
      Node.regulate, Node.transmitAll, h]
  · simp [accept, NodeTable.reserve, NodeTable.update_eq_put, NodeTable.enqueue,
      NodeTable.modify_eq_put, Node.meet, Node.regulate, Node.transmitAll, h]

theorem send_eq_ok_of_fits {f : Flow} {a : Address} {r : Request} (h : f.checkFits a r = .ok ()) :
    f.send a r = .ok (f.accept a r) := by
  simp [send, h, Except.map]

theorem send_eq_error {f : Flow} {a : Address} {r : Request} {e : LinkError}
    (h : f.checkFits a r = .error e) : f.send a r = .error e := by
  simp [send, h, Except.map]

variable {t : NodeTable} {n : Node}

theorem settle_put (f : Flow) (m : Message) (h : f.table = t.put m.address n) :
    (f.settle m).1.table = t.put m.address (n.meetAll m.address (answers m)).1 ∧
      (f.settle m).2.2 = (n.meetAll m.address (answers m)).2 := by
  unfold settle answers
  split
  · simp [h, NodeTable.release, NodeTable.update_eq_put, NodeTable.transmitFor_put,
      Node.meetAll, Node.meet, Node.regulate]
  · exact ⟨h, rfl⟩

theorem react_put (f : Flow) (m : Message) (h : f.table = t.put m.address n) :
    (f.react m).1.table = t.put m.address (n.meetAll m.address (f.reactions m)).1 ∧
      (f.react m).2 = (n.meetAll m.address (f.reactions m)).2 := by
  unfold react reactions
  split
  · -- a report of the buffer size
    unfold handleCapacity
    cases m.payload with
    | nil => exact ⟨h, rfl⟩
    | cons bytes rest =>
      simp only [NodeTable.learn]
      split
      · simp [h, NodeTable.update_eq_put, NodeTable.transmitFor_put, Node.meetAll, Node.meet,
          Node.regulate]
      · exact ⟨h, rfl⟩
  · split
    · -- a node change
      unfold handleNodeChange offers
      cases hc : f.checkFits m.address (changeAck m) with
      | error e => simp [send_eq_error hc, h, Node.meetAll]
      | ok u =>
        have hacc := f.accept_eq m.address (changeAck m)
        simp only [h, NodeTable.node_put_self, NodeTable.put_put] at hacc
        simp [send_eq_ok_of_fits hc, Node.meetAll, hacc]
    · exact ⟨h, rfl⟩

theorem handleStall_known {f : Flow} {m : Message} {b : Address} {n₀ : Node}
    (hm : f.table.nodes.find? m.address = some n₀) (hb : f.table.nodes.find? b = some n) :
    (f.handleStall m).1.table.nodes.find? b =
        some (if m.address.isPrefixOf b then (n.meet b (signal m)).1 else n) ∧
      sentTo b (f.handleStall m).2 =
        if m.address.isPrefixOf b then (n.meet b (signal m)).2 else [] := by
  have hset := f.table.find?_setStall hm (m.payload.headD 0 != 0) b
  have hfreed := f.table.valuesAt_setStall hm (m.payload.headD 0 != 0) b
  rw [hb] at hset hfreed
  obtain ⟨h1, h2⟩ := NodeTable.transmitAll_known hset
  rw [hfreed] at h1 h2
  refine ⟨h1.trans ?_, h2.trans ?_⟩ <;> by_cases hp : m.address.isPrefixOf b <;>
    simp [hp, Node.meet, Node.regulate, signal, Node.transmitAll]

theorem handleStall_unknown {f : Flow} {m : Message} {b : Address} {n₀ : Node}
    (hm : f.table.nodes.find? m.address = some n₀) (hb : f.table.nodes.find? b = none) :
    (f.handleStall m).1.table.nodes.find? b = none ∧ sentTo b (f.handleStall m).2 = [] := by
  have hset := f.table.find?_setStall hm (m.payload.headD 0 != 0) b
  have hfreed := f.table.valuesAt_setStall hm (m.payload.headD 0 != 0) b
  rw [hb] at hset hfreed
  exact NodeTable.transmitAll_unknown hset hfreed

/-- An input does to the entry of `b` what its occurrences for `b` do. -/
def ActsAs (f : Flow) (b : Address) (os : List Occurrence) (result : Flow × List Message) : Prop :=
  result.1.table.nodes.find? b =
      (if os = [] then f.table.nodes.find? b else some ((f.table.node b).meetAll b os).1) ∧
    sentTo b result.2 = ((f.table.node b).meetAll b os).2

theorem actsAs_of_eq {f : Flow} {b : Address} {result : Flow × List Message}
    (h1 : result.1.table.nodes.find? b = f.table.nodes.find? b) (h2 : sentTo b result.2 = []) :
    f.ActsAs b [] result :=
  ⟨h1, h2⟩

/-- Where only the entry of `a` changes, nothing happens to other nodes. -/
theorem actsAs_of_put {f : Flow} {a b : Address} {os : List Occurrence}
    {result : Flow × List Message} (hos : os ≠ [])
    (h1 : result.1.table = f.table.put a ((f.table.node a).meetAll a os).1)
    (h2 : result.2 = ((f.table.node a).meetAll a os).2) :
    f.ActsAs b (if a = b then os else []) result := by
  split
  case isTrue h =>
    subst h
    refine ⟨?_, ?_⟩
    · rw [h1, NodeTable.find?_put, if_pos rfl, if_neg hos]
    · rw [h2, sentTo_meetAll, if_pos rfl]
  case isFalse h =>
    refine actsAs_of_eq ?_ ?_
    · rw [h1, NodeTable.find?_put, if_neg (Ne.symm h)]
    · rw [h2, sentTo_meetAll, if_neg h]

theorem send_actsAs (f : Flow) (a b : Address) (r : Request) :
    f.ActsAs b (f.occurrences b (.send a r)) (f.step (.send a r)) := by
  cases hc : f.checkFits a r with
  | error e =>
    have hoff : f.offers a r = [] := by simp [offers, hc]
    have hocc : f.occurrences b (.send a r) = [] := by
      simp only [occurrences]
      split
      case isTrue h => exact h ▸ hoff
      case isFalse => rfl
    rw [hocc]
    simp only [step, send_eq_error hc]
    exact actsAs_of_eq rfl rfl
  | ok u =>
    have hocc : f.occurrences b (.send a r) = if a = b then [.offered r] else [] := by
      simp only [occurrences]
      split
      case isTrue h => subst h; simp [offers, hc]
      case isFalse => rfl
    obtain ⟨h1, h2⟩ := f.accept_eq a r
    rw [hocc]
    simp only [step, send_eq_ok_of_fits hc]
    exact actsAs_of_put (by simp) (by simpa [Node.meetAll_singleton] using h1)
      (by simpa [Node.meetAll_singleton] using h2)

theorem disable_actsAs (f : Flow) (b : Address) :
    f.ActsAs b (f.occurrences b .disable) (f.step .disable) := by
  cases hc : f.checkFits .root Session.disableRequest with
  | error e =>
    have hocc : f.occurrences b .disable = [] := by
      simp only [occurrences]
      split
      case isTrue h => subst h; simp [hc]
      case isFalse => rfl
    rw [hocc]
    simp only [step, sendUnchecked, hc]
    exact actsAs_of_eq rfl rfl
  | ok u =>
    have hocc : f.occurrences b .disable =
        if .root = b then [.pushed Session.disableRequest] else [] := by
      simp only [occurrences]
      split
      case isTrue h => subst h; simp [hc]
      case isFalse => rfl
    rw [hocc]
    simp only [step, sendUnchecked, hc, Except.map, NodeTable.transmit_eq_put]
    refine actsAs_of_put (by simp) ?_ ?_ <;>
      simp [Node.meetAll, Node.meet, Node.regulate, Node.transmitAll]

theorem observe_table (f : Flow) (m : Message) :
    (f.observe m).table =
      f.table.put m.address ((f.table.node m.address).meet m.address (.heard m.seq)).1 := rfl

theorem receive_stall_actsAs (f : Flow) (b : Address) {m : Message} (hm : m.type = .stall) :
    f.ActsAs b (f.occurrences b (.receive m)) (f.receive m) := by
  have hself : (f.observe m).table.nodes.find? m.address =
      some ((f.table.node m.address).meet m.address (.heard m.seq)).1 := by
    rw [observe_table, NodeTable.find?_put, if_pos rfl]
  have hreceive : f.receive m = (f.observe m).handleStall m := by simp [receive, hm]
  rw [hreceive]
  by_cases hb : m.address = b
  · subst hb
    obtain ⟨h1, h2⟩ := handleStall_known hself hself
    rw [Address.isPrefixOf_self, if_pos rfl] at h1 h2
    simp only [occurrences, hm, if_true]
    refine ⟨h1.trans ?_, h2.trans ?_⟩ <;> simp [Node.meetAll, Node.meet, Node.regulate,
      Node.transmitAll]
  · have hother : (f.observe m).table.nodes.find? b = f.table.nodes.find? b := by
      rw [observe_table, NodeTable.find?_put, if_neg (Ne.symm hb)]
    cases hf : f.table.nodes.find? b with
    | none =>
      have hocc : f.occurrences b (.receive m) = [] := by simp [occurrences, hb, hf]
      obtain ⟨h1, h2⟩ := handleStall_unknown hself (hother.trans hf)
      rw [hocc]
      exact actsAs_of_eq (h1.trans hf.symm) h2
    | some n =>
      obtain ⟨h1, h2⟩ := handleStall_known hself (hother.trans hf)
      have hocc : f.occurrences b (.receive m) =
          if m.address.isPrefixOf b then [signal m] else [] := by
        simp [occurrences, hb, hf, hm]
      rw [hocc]
      by_cases hp : m.address.isPrefixOf b
      · simp only [hp, if_true] at h1 h2 ⊢
        refine ⟨h1.trans ?_, h2.trans ?_⟩ <;>
          simp [NodeTable.node_of_find? hf, Node.meetAll_singleton]
      · simp only [hp, Bool.false_eq_true, if_false] at h1 h2 ⊢
        exact actsAs_of_eq (h1.trans hf.symm) h2

/-- A message that signals no stall changes the entry of its own node only. -/
theorem receive_eq_put (f : Flow) {m : Message} (hm : m.type ≠ .stall) :
    (f.receive m).1.table =
        f.table.put m.address
          ((f.table.node m.address).meetAll m.address (f.occurrences m.address (.receive m))).1 ∧
      (f.receive m).2 =
        ((f.table.node m.address).meetAll m.address (f.occurrences m.address (.receive m))).2 := by
  have hocc : f.occurrences m.address (.receive m) =
      .heard m.seq :: (f.reactions m ++ answers m) := by
    simp [occurrences, hm]
  obtain ⟨h1, h2⟩ := (f.observe m).react_put m (f.observe_table m)
  obtain ⟨h3, h4⟩ := ((f.observe m).react m).1.settle_put m h1
  have hreact : (f.observe m).reactions m = f.reactions m := rfl
  rw [hreact] at h1 h2 h3 h4
  rw [hocc, Node.meetAll_cons, Node.meetAll_append]
  constructor
  · have htable : (f.receive m).1.table = (((f.observe m).react m).1.settle m).1.table := by
      simp only [receive, hm, if_false, deliver]
      split <;> rfl
    rw [htable, h3]
  · have hsent : (f.receive m).2 =
        ((f.observe m).react m).2 ++ (((f.observe m).react m).1.settle m).2.2 := by
      simp [receive, hm]
    rw [hsent, h2, h4]
    rfl

theorem receive_other_actsAs (f : Flow) (b : Address) {m : Message} (hm : m.type ≠ .stall) :
    f.ActsAs b (f.occurrences b (.receive m)) (f.receive m) := by
  have hocc : f.occurrences b (.receive m) =
      if m.address = b then f.occurrences m.address (.receive m) else [] := by
    by_cases hb : m.address = b
    · rw [if_pos hb, hb]
    · simp [occurrences, hm, hb]
  obtain ⟨h1, h2⟩ := f.receive_eq_put hm
  rw [hocc]
  exact actsAs_of_put (by simp [occurrences]) h1 h2

/-- **An input does to every node what its occurrences for that node do.** -/
theorem step_actsAs (f : Flow) (i : Input) (b : Address) :
    f.ActsAs b (f.occurrences b i) (f.step i) := by
  cases i with
  | send a r => exact f.send_actsAs a b r
  | receive m =>
    by_cases hm : m.type = .stall
    · exact f.receive_stall_actsAs b hm
    · exact f.receive_other_actsAs b hm
  | disable => exact f.disable_actsAs b

end Flow
end RailBus
