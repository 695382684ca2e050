import RailBus.Proofs.Traffic

/-!
# What is delivered

Every inbound message but a stall signal is handed to one of the two inboxes, in the order of
arrival, and on the way only answers are given action ids (`delivers`). Each is recorded together
with what it found: whether a request of its node was outstanding when it came.
-/

namespace RailBus

/-- What of a message is on the line. -/
def Message.onLine (m : Message) : Message := { m with action := none }

namespace Flow

/-- A message handed to the inboxes, and whether a request of its node was outstanding when it
came. -/
structure Delivery where
  message : Message
  awaited : Bool

/-- What an input hands on to the inboxes. A stall signal is not handed on. -/
def delivered (f : Flow) : Input → List Delivery
  | .receive m =>
    if m.type = .stall then []
    else [⟨(((f.observe m).react m).1.settle m).2.1, !(f.table.node m.address).outstanding.isEmpty⟩]
  | .send _ _ | .disable => []

def deliveries (f : Flow) : List Input → List Delivery
  | [] => []
  | i :: rest => f.delivered i ++ (f.step i).1.deliveries rest

/-- The delivered messages are those that are added to the inboxes, in this order. -/
def Hands (f : Flow) (ms : List Message) (g : Flow) : Prop :=
  g.uplink.messages = f.uplink.messages ++ ms.filter (!·.type.isError) ∧
    g.errors.messages = f.errors.messages ++ ms.filter (·.type.isError)

variable {f : Flow} {m : Message}

/-! ## The inboxes -/

theorem Hands.of_eq {g g' : Flow} {ms : List Message} (h : g.Hands ms g')
    (huplink : g.uplink = f.uplink) (herrors : g.errors = f.errors) : f.Hands ms g' := by
  rw [Hands, ← huplink, ← herrors]
  exact h

theorem Hands.trans {g g' : Flow} {ms ms' : List Message} (h : f.Hands ms g)
    (h' : g.Hands ms' g') : f.Hands (ms ++ ms') g' := by
  constructor
  · rw [h'.1, h.1, List.filter_append, List.append_assoc]
  · rw [h'.2, h.2, List.filter_append, List.append_assoc]

theorem hands_nil (f : Flow) : f.Hands [] f := by simp [Hands]

theorem hands_deliver (f : Flow) (m : Message) : f.Hands [m] (f.deliver m) := by
  unfold Hands deliver
  by_cases h : m.type.isError = true <;> simp [h, Inbox.push]

theorem hands_step (f : Flow) (i : Input) :
    f.Hands ((f.delivered i).map (·.message)) (f.step i).1 := by
  cases i with
  | send a r =>
    cases hc : f.checkFits a r with
    | error e =>
      simp only [step, send_eq_error hc]
      exact f.hands_nil
    | ok u =>
      have htouch := f.touchesTable_accept a r
      simp only [step, send_eq_ok_of_fits hc]
      exact (hands_nil _).of_eq htouch.uplink htouch.errors
  | disable =>
    simp only [step, sendUnchecked]
    cases f.checkFits .root Session.disableRequest <;> exact (hands_nil _).of_eq rfl rfl
  | receive m =>
    by_cases hm : m.type = .stall
    · simp only [delivered, step, receive, hm, if_true]
      exact (hands_nil _).of_eq rfl rfl
    · have htouch := ((f.observe m).touchesTable_react m).trans (touchesTable_settle _ m)
      have hdeliver := (hands_deliver _ (((f.observe m).react m).1.settle m).2.1).of_eq
        htouch.uplink htouch.errors
      simp only [delivered, step, receive, hm, if_false]
      exact hdeliver.of_eq rfl rfl

/-! ## What comes is delivered -/

/-- What an input brings to be delivered. -/
def Input.inbound : Input → List Message
  | .receive m => if m.type = .stall then [] else [m]
  | .send _ _ | .disable => []

/-- A delivered message differs from what came in the action id only. -/
theorem delivered_onLine (f : Flow) (i : Input) :
    (f.delivered i).map (·.message.onLine) = i.inbound.map Message.onLine := by
  cases i with
  | send b r => rfl
  | disable => rfl
  | receive m =>
    by_cases hstall : m.type = .stall
    · simp [delivered, Input.inbound, hstall]
    · have hsettled : ∀ g : Flow, (g.settle m).2.1.onLine = m.onLine := by
        intro g
        unfold settle
        split <;> rfl
      simp [delivered, Input.inbound, hstall, hsettled]

theorem delivered_other (hm : settles m = false) (hstall : m.type ≠ .stall) :
    f.delivered (.receive m) = [⟨m, !(f.table.node m.address).outstanding.isEmpty⟩] := by
  simp [delivered, hstall, settle, hm]

/-- And only an answer differs from what came. -/
theorem mem_inbound_of_delivered {i : Input} {d : Delivery} (hd : d ∈ f.delivered i)
    (hanswer : settles d.message = false) : d.message ∈ i.inbound := by
  cases i with
  | send b r => cases hd
  | disable => cases hd
  | receive m =>
    by_cases hstall : m.type = .stall
    · simp [delivered, hstall] at hd
    · cases hm : settles m with
      | false =>
        rw [delivered_other hm hstall, List.mem_singleton] at hd
        simp [hd, Input.inbound, hstall]
      | true =>
        have hsettled : settles (((f.observe m).react m).1.settle m).2.1 = true := by
          rw [settle, if_pos hm]
          exact hm
        simp only [delivered, hstall, if_false, List.mem_singleton] at hd
        rw [hd, hsettled] at hanswer
        cases hanswer

/-! ## Runs -/

theorem hands_run (f : Flow) (is : List Input) :
    f.Hands ((f.deliveries is).map (·.message)) (f.run is).1 := by
  induction is generalizing f with
  | nil => exact f.hands_nil
  | cons i rest ih =>
    rw [deliveries, List.map_append]
    exact (f.hands_step i).trans (ih (f.step i).1)

theorem deliveries_onLine (f : Flow) (is : List Input) :
    (f.deliveries is).map (·.message.onLine) =
      (is.flatMap Input.inbound).map Message.onLine := by
  induction is generalizing f with
  | nil => rfl
  | cons i rest ih =>
    rw [deliveries, List.map_append, delivered_onLine, ih, List.flatMap_cons, List.map_append]

theorem mem_inbound_of_deliveries {is : List Input} {d : Delivery} (hd : d ∈ f.deliveries is)
    (hanswer : settles d.message = false) : d.message ∈ is.flatMap Input.inbound := by
  induction is generalizing f with
  | nil => cases hd
  | cons i rest ih =>
    rw [List.flatMap_cons, List.mem_append]
    exact (List.mem_append.1 hd).imp (fun h => mem_inbound_of_delivered h hanswer) ih

end Flow

namespace Link

/-- What was delivered while `ts` was carried. -/
def deliveries (l : Link) (ts : List Traffic) : List Flow.Delivery :=
  l.flow.deliveries (ts.flatMap Traffic.inputs)

/-- The inboxes hold what was delivered. All of it came, in this order, and nothing but an answer
was given an action id. -/
structure Delivers (l : Link) (ts : List Traffic) : Prop where
  uplink : (l.carryAll ts).flow.uplink.messages =
    ((l.deliveries ts).map (·.message)).filter (!·.type.isError)
  errors : (l.carryAll ts).flow.errors.messages =
    ((l.deliveries ts).map (·.message)).filter (·.type.isError)
  inbound : (l.deliveries ts).map (·.message.onLine) =
    ((ts.flatMap Traffic.inputs).flatMap Flow.Input.inbound).map Message.onLine
  unmarked : ∀ d ∈ l.deliveries ts, Flow.settles d.message = false →
    d.message ∈ (ts.flatMap Traffic.inputs).flatMap Flow.Input.inbound

/-- A link with empty inboxes fills them with what is delivered. -/
theorem delivers {l : Link} (huplink : l.flow.uplink.messages = [])
    (herrors : l.flow.errors.messages = []) (ts : List Traffic) : l.Delivers ts := by
  obtain ⟨hmessages, hreports⟩ := l.flow.hands_run (ts.flatMap Traffic.inputs)
  rw [← (l.carryAll_takes ts).flow] at hmessages hreports
  constructor
  · rw [hmessages, huplink, List.nil_append]
    rfl
  · rw [hreports, herrors, List.nil_append]
    rfl
  · exact Flow.deliveries_onLine _ _
  · exact fun d hd => Flow.mem_inbound_of_deliveries hd

end Link
end RailBus
