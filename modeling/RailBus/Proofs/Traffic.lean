import RailBus.Proofs.Run

/-!
# Runs of a link

Traffic is what a link carries while it is up: messages to be sent, packets that came, flushes.
Between stretches of traffic a session may end and the link be reset. To flow control all of it is
a run of inputs that starts from an empty node table, so a node that is known has met occurrences
from its first entry on (`node_history`).
-/

namespace RailBus

inductive Traffic
  | send (a : Address) (r : Request)
  | handle (result : Packet.Result)
  | flush

inductive Event
  | traffic (t : Traffic)
  /-- a session ends: the interface is told to fall silent -/
  | disable
  | reset

/-- What of the traffic reaches flow control. -/
def Traffic.inputs : Traffic → List Flow.Input
  | .send a r => [.send a r]
  | .handle (.ok ms) => ms.map .receive
  | .handle (.error _) => []
  | .flush => []

def Event.inputs : Event → List Flow.Input
  | .traffic t => t.inputs
  | .disable => [.disable]
  | .reset => []

namespace Link

def carry (l : Link) : Traffic → Link
  | .send a r => (l.send a r).1
  | .handle result => l.handlePacket result
  | .flush => l.flush

def carryAll (l : Link) (ts : List Traffic) : Link := ts.foldl carry l

/-- The account of the messages that were accepted and put into packets while `ts` was carried. -/
def ledger (l : Link) (ts : List Traffic) : Ledger := (l.flow.run (ts.flatMap Traffic.inputs)).2

def step (l : Link) : Event → Link
  | .traffic t => l.carry t
  | .disable => (l.sendUnchecked .root Session.disableRequest).1
  | .reset => l.reset

def run (l : Link) (es : List Event) : Link := es.foldl step l

/-- The messages put into packets while `es` happen. -/
def transmitted (l : Link) : List Event → List Message
  | [] => []
  | e :: rest => (l.flow.run e.inputs).2.appended ++ (l.step e).transmitted rest

/-! ## Traffic as inputs -/

/-- From `l` the inputs `is` lead to `l'`: its flow control took them, and its writer was given
what was transmitted. -/
structure Takes (l : Link) (is : List Flow.Input) (l' : Link) : Prop where
  flow : l'.flow = (l.flow.run is).1
  writer : l.writer.Appends ((l.flow.run is).2.appended.map Message.layout) l'.writer

theorem Takes.refl (l : Link) : l.Takes [] l := ⟨rfl, .refl⟩

theorem Takes.trans {l l' l'' : Link} {is is' : List Flow.Input} (h : l.Takes is l')
    (h' : l'.Takes is' l'') : l.Takes (is ++ is') l'' := by
  have hflow := h'.flow
  have hwriter := h'.writer
  rw [h.flow] at hflow hwriter
  constructor
  · rw [hflow, Flow.run_append]
  · rw [Flow.run_append, List.map_append]
    exact h.writer.trans hwriter

theorem takes_of_step {l : Link} {i : Flow.Input} :
    l.Takes [i] (l.pack (l.flow.step i).1 (l.flow.step i).2) := by
  refine ⟨rfl, ?_⟩
  have happended : (l.flow.run [i]).2.appended = (l.flow.step i).2 := by
    simp [Flow.run]
  rw [happended]
  exact l.writer.appends_appendAll _

theorem Takes.then_flush {l l' : Link} {is : List Flow.Input} (h : l.Takes is l') :
    l.Takes is l'.flush :=
  ⟨h.flow, h.writer.flush⟩

theorem send_takes (l : Link) (a : Address) (r : Request) :
    l.Takes [.send a r] (l.send a r).1 := by
  have hstep := takes_of_step (l := l) (i := .send a r)
  cases hs : l.flow.send a r with
  | error e =>
    -- nothing was transmitted, and packing nothing changes nothing
    simpa [Flow.step, send, hs, pack, PacketWriter.appendAll] using hstep
  | ok x => simpa [Flow.step, send, hs] using hstep

theorem sendUnchecked_takes (l : Link) :
    l.Takes [.disable] (l.sendUnchecked .root Session.disableRequest).1 := by
  have hstep := takes_of_step (l := l) (i := .disable)
  cases hs : l.flow.sendUnchecked .root Session.disableRequest with
  | error e => simpa [Flow.step, sendUnchecked, hs, pack, PacketWriter.appendAll] using hstep
  | ok x => simpa [Flow.step, sendUnchecked, hs] using hstep

theorem receive_takes (l : Link) (m : Message) : l.Takes [.receive m] (l.receive m) := by
  have hstep := takes_of_step (l := l) (i := .receive m)
  simp only [receive]
  split
  · exact hstep.then_flush
  · exact hstep

theorem foldl_receive_takes (l : Link) (ms : List Message) :
    l.Takes (ms.map .receive) (ms.foldl receive l) := by
  induction ms generalizing l with
  | nil => exact Takes.refl l
  | cons m rest ih => exact (l.receive_takes m).trans (ih (l.receive m))

theorem carry_takes (l : Link) (t : Traffic) : l.Takes t.inputs (l.carry t) := by
  cases t with
  | send a r => exact l.send_takes a r
  | flush => exact (Takes.refl l).then_flush
  | handle result =>
    cases result with
    | ok ms =>
      obtain ⟨hflow, hwriter⟩ :=
        foldl_receive_takes { l with packetsReceived := l.packetsReceived + 1 } ms
      exact ⟨hflow, hwriter⟩
    | error e => cases e <;> exact ⟨rfl, .refl⟩

theorem carryAll_takes (l : Link) (ts : List Traffic) :
    l.Takes (ts.flatMap Traffic.inputs) (l.carryAll ts) := by
  induction ts generalizing l with
  | nil => exact Takes.refl l
  | cons t rest ih => exact (l.carry_takes t).trans (ih (l.carry t))

theorem step_takes (l : Link) {e : Event} (h : e ≠ .reset) : l.Takes e.inputs (l.step e) := by
  cases e with
  | traffic t => exact l.carry_takes t
  | disable => exact l.sendUnchecked_takes
  | reset => exact absurd rfl h

/-- Without a reset all that happens to a link is one run of its flow control. -/
theorem run_takes (l : Link) {es : List Event} (h : .reset ∉ es) :
    l.Takes (es.flatMap Event.inputs) (l.run es) := by
  induction es generalizing l with
  | nil => exact Takes.refl l
  | cons e rest ih =>
    rw [List.mem_cons, not_or] at h
    exact (l.step_takes (Ne.symm h.1)).trans (ih (l.step e) h.2)

theorem transmitted_eq_run (l : Link) {es : List Event} (h : .reset ∉ es) :
    l.transmitted es = (l.flow.run (es.flatMap Event.inputs)).2.appended := by
  induction es generalizing l with
  | nil => rfl
  | cons e rest ih =>
    rw [List.mem_cons, not_or] at h
    rw [transmitted, ih _ h.2, (l.step_takes (Ne.symm h.1)).flow, List.flatMap_cons,
      Flow.run_append]

theorem transmitted_append (l : Link) (es es' : List Event) :
    l.transmitted (es ++ es') = l.transmitted es ++ (l.run es).transmitted es' := by
  induction es generalizing l with
  | nil => rfl
  | cons e rest ih =>
    simp only [List.cons_append, transmitted, ih, List.append_assoc]
    rfl

/-- A message to be sent is on the account unless it is refused. -/
theorem accepted_send (l : Link) (a : Address) (r : Request) :
    (l.ledger [.send a r]).accepted =
      match (l.send a r).2 with
      | .ok _ => [(a, r)]
      | .error _ => [] := by
  have hledger : (l.ledger [.send a r]).accepted = l.flow.accepted (.send a r) := by
    simp [ledger, Traffic.inputs, Flow.run]
  rw [hledger, send]
  cases hs : l.flow.send a r <;> simp [Flow.accepted, hs]

end Link

/-! ## From an empty table on -/

/-- Inputs lead to `f` from an empty table of these settings. -/
def Flow.Reached (settings : Nat × UInt8 × Bool) (f : Flow) : Prop :=
  ∃ (f₀ : Flow) (is : List Flow.Input),
    (∀ a, f₀.table.nodes.find? a = none) ∧ f₀.settings = settings ∧ f = (f₀.run is).1

theorem Flow.Reached.run {settings : Nat × UInt8 × Bool} {f : Flow} (h : f.Reached settings)
    (is : List Input) : (f.run is).1.Reached settings := by
  obtain ⟨f₀, is₀, hempty, hsettings, rfl⟩ := h
  exact ⟨f₀, is₀ ++ is, hempty, hsettings, by rw [Flow.run_append]⟩

/-- A node that is known has met permitted occurrences since it was new. -/
theorem Flow.Reached.history {settings : Nat × UInt8 × Bool} {f : Flow} (h : f.Reached settings)
    {a : Address} {n : Node} (hn : f.table.nodes.find? a = some n) :
    ∃ stalled os, n = ((Node.fresh settings.2.1 stalled).meetAll a os).1 ∧
      ∀ o ∈ os, o.Permitted settings.1 a := by
  obtain ⟨f₀, is, hempty, hsettings, rfl⟩ := h
  have hlimit : f₀.limit = settings.1 := congrArg Prod.fst hsettings
  have hcredit : f₀.table.defaultCredit = settings.2.1 := congrArg (·.2.1) hsettings
  rcases Flow.run_unknown is (hempty a) with ⟨hnone, -, -⟩ | ⟨stalled, os, hos⟩
  · rw [hnone] at hn
    cases hn
  · rw [hos.entry, hcredit] at hn
    exact ⟨stalled, os, (Option.some.inj hn).symm, hlimit ▸ hos.permitted⟩

/-- All that waits for a node fits a packet. -/
theorem Flow.Reached.pendingFit {settings : Nat × UInt8 × Bool} {f : Flow}
    (h : f.Reached settings) {a : Address} {n : Node} (hn : f.table.nodes.find? a = some n) :
    n.PendingFit settings.1 a := by
  obtain ⟨stalled, os, rfl, ho⟩ := h.history hn
  have hfresh := Node.pendingFit_fresh settings.1 a settings.2.1 stalled
  exact (Node.meetAll_induction (P := fun _ => True) (fun _ _ _ _ _ => trivial) ho hfresh trivial).2

theorem Flow.Reached.limit {settings : Nat × UInt8 × Bool} {f : Flow} (h : f.Reached settings) :
    f.limit = settings.1 := by
  obtain ⟨f₀, is, -, hsettings, rfl⟩ := h
  rw [← hsettings]
  exact congrArg Prod.fst (f₀.run_settings is)

namespace Link

variable {settings : Nat × UInt8 × Bool} {l : Link}

theorem reached_of_takes {l' : Link} {is : List Flow.Input} (h : l.flow.Reached settings)
    (hl : l.Takes is l') : l'.flow.Reached settings := by
  rw [hl.flow]
  exact h.run is

theorem reached_step (h : l.flow.Reached settings) (e : Event) :
    (l.step e).flow.Reached settings := by
  cases e with
  | traffic t => exact reached_of_takes h (l.carry_takes t)
  | disable => exact reached_of_takes h l.sendUnchecked_takes
  | reset =>
    obtain ⟨f₀, is, -, hsettings, hflow⟩ := h
    refine ⟨l.flow.reset, [], fun _ => rfl, ?_, rfl⟩
    have hreset : l.flow.reset.settings = l.flow.settings := rfl
    rw [hreset, hflow, Flow.run_settings, hsettings]

theorem reached_run (h : l.flow.Reached settings) (es : List Event) :
    (l.run es).flow.Reached settings := by
  induction es generalizing l with
  | nil => exact h
  | cons e rest ih => exact ih (reached_step h e)

theorem reached_new (config : Config) (sink : Sink) (es : List Event) :
    ((Link.new config sink).run es).flow.Reached (Link.new config sink).flow.settings :=
  reached_run ⟨(Link.new config sink).flow, [], fun _ => rfl, rfl, rfl⟩ es

/-- Whatever happens to a link, a node it knows has met permitted occurrences since it was new. -/
theorem node_history {config : Config} {sink : Sink} {es : List Event} {a : Address} {n : Node}
    (h : ((Link.new config sink).run es).flow.table.nodes.find? a = some n) :
    ∃ stalled os,
      n = ((Node.fresh (max config.flowControl.defaultCredit 1) stalled).meetAll a os).1 ∧
      ∀ o ∈ os, o.Permitted config.link.maxPacketSize a :=
  (reached_new config sink es).history h

end Link
end RailBus
