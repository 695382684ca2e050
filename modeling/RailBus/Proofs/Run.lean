import RailBus.Proofs.PacketWriter
import RailBus.Proofs.Projection

/-!
# Runs

Flow control takes one input after the other, and a ledger keeps what was accepted and what was
sent. What a run does to one node is told by occurrences that the node meets alone (`run_known`,
`run_unknown`).
-/

namespace RailBus

/-- An account of a run: the messages accepted for sending, and those put into packets. -/
structure Ledger where
  accepted : List (Address × Request) := []
  appended : List Message := []
  deriving DecidableEq

namespace Flow

def run (f : Flow) : List Input → Flow × Ledger
  | [] => (f, {})
  | i :: rest =>
    let (g, ledger) := (f.step i).1.run rest
    (g, ⟨f.accepted i ++ ledger.accepted, (f.step i).2 ++ ledger.appended⟩)

theorem run_append (f : Flow) (is is' : List Input) :
    f.run (is ++ is') =
      (((f.run is).1.run is').1,
        ⟨(f.run is).2.accepted ++ ((f.run is).1.run is').2.accepted,
          (f.run is).2.appended ++ ((f.run is).1.run is').2.appended⟩) := by
  induction is generalizing f with
  | nil => rfl
  | cons i rest ih => simp [run, ih]

theorem run_snoc (f : Flow) (is : List Input) (i : Input) :
    (f.run (is ++ [i])).1 = ((f.run is).1.step i).1 := by
  rw [run_append]
  rfl

/-! ## Settings never change -/

/-- What of flow control is fixed when it is made. -/
def settings (f : Flow) : Nat × UInt8 × Bool :=
  (f.limit, f.table.defaultCredit, f.table.honorReports)

theorem settings_of_put {f g : Flow} {a : Address} {n : Node} (hlimit : g.limit = f.limit)
    (htable : g.table = f.table.put a n) : g.settings = f.settings := by
  simp only [settings, hlimit, htable]
  rfl

/-- From `f` to `g` only the node table and the count of messages that had to wait change. -/
def TouchesTable (f g : Flow) : Prop :=
  g = { f with table := g.table, messagesQueued := g.messagesQueued }

namespace TouchesTable

variable {f g h : Flow}

theorem trans (hfg : f.TouchesTable g) (hgh : g.TouchesTable h) : f.TouchesTable h := by
  rw [TouchesTable, hgh, hfg]

theorem limit (hfg : f.TouchesTable g) : g.limit = f.limit := by rw [hfg]

theorem uplink (hfg : f.TouchesTable g) : g.uplink = f.uplink := by rw [hfg]

theorem errors (hfg : f.TouchesTable g) : g.errors = f.errors := by rw [hfg]

end TouchesTable

theorem touchesTable_accept (f : Flow) (a : Address) (r : Request) :
    f.TouchesTable (f.accept a r).1 := by
  simp only [accept]
  split <;> rfl

theorem touchesTable_react (f : Flow) (m : Message) : f.TouchesTable (f.react m).1 := by
  unfold react
  split
  · unfold handleCapacity
    split <;> rfl
  · split
    · unfold handleNodeChange
      cases hc : f.checkFits m.address (changeAck m) with
      | error e => rw [send_eq_error hc]; rfl
      | ok u => rw [send_eq_ok_of_fits hc]; exact f.touchesTable_accept _ _
    · rfl

theorem touchesTable_settle (f : Flow) (m : Message) : f.TouchesTable (f.settle m).1 := by
  unfold settle
  split <;> rfl

theorem limit_receive (f : Flow) {m : Message} (hm : m.type ≠ .stall) :
    (f.receive m).1.limit = f.limit := by
  have hdeliver : ∀ (g : Flow) (m : Message), (g.deliver m).limit = g.limit := by
    intro g m
    unfold deliver
    split <;> rfl
  have htouch := ((f.observe m).touchesTable_react m).trans (touchesTable_settle _ m)
  simp only [receive, hm, if_false, hdeliver]
  exact htouch.limit

theorem transmitAll_settings (t : NodeTable) (l : List (Address × Request)) :
    (t.transmitAll l).1.defaultCredit = t.defaultCredit ∧
      (t.transmitAll l).1.honorReports = t.honorReports := by
  induction l generalizing t with
  | nil => exact ⟨rfl, rfl⟩
  | cons x rest ih =>
    simp only [NodeTable.transmitAll, NodeTable.transmit_eq_put]
    exact ih _

theorem handleStall_settings (f : Flow) (m : Message) :
    (f.handleStall m).1.settings = f.settings := by
  obtain ⟨h1, h2⟩ := transmitAll_settings (f.table.setStall m.address (m.payload.headD 0 != 0)).1
    (f.table.setStall m.address (m.payload.headD 0 != 0)).2
  simp only [settings, handleStall, h1, h2]
  rfl

theorem step_settings (f : Flow) (i : Input) : (f.step i).1.settings = f.settings := by
  cases i with
  | send a r =>
    cases hc : f.checkFits a r with
    | error e => simp [step, send_eq_error hc]
    | ok u =>
      simp only [step, send_eq_ok_of_fits hc]
      exact settings_of_put (f.touchesTable_accept a r).limit (f.accept_eq a r).1
  | receive m =>
    by_cases hm : m.type = .stall
    · simp only [step, receive, hm, if_true, handleStall_settings]
      rfl
    · exact settings_of_put (f.limit_receive hm) (f.receive_eq_put hm).1
  | disable =>
    simp only [step, sendUnchecked, NodeTable.transmit_eq_put]
    cases f.checkFits .root Session.disableRequest <;> rfl

theorem run_settings (f : Flow) (is : List Input) : (f.run is).1.settings = f.settings := by
  induction is generalizing f with
  | nil => rfl
  | cons i rest ih => exact (ih _).trans (f.step_settings i)

theorem limit_step (f : Flow) (i : Input) : (f.step i).1.limit = f.limit :=
  congrArg Prod.fst (f.step_settings i)

theorem defaultCredit_step (f : Flow) (i : Input) :
    (f.step i).1.table.defaultCredit = f.table.defaultCredit :=
  congrArg (·.2.1) (f.step_settings i)

/-! ## What the occurrences of an input are -/

theorem of_mem_offers {f : Flow} {a : Address} {r : Request} {o : Occurrence}
    (h : o ∈ f.offers a r) : o = .offered r ∧ r.Fits f.limit a := by
  unfold offers at h
  split at h
  case h_1 hc => exact ⟨List.mem_singleton.1 h, (f.checkFits_eq_ok_iff a r).1 hc⟩
  case h_2 => cases h

/-- Where a message makes a node do more than be heard, the reasons are these. -/
theorem of_mem_reactions {f : Flow} {m : Message} {o : Occurrence} (h : o ∈ f.reactions m) :
    (∃ bytes, o = .reported bytes) ∨ o = .offered (changeAck m) ∧
      (changeAck m).Fits f.limit m.address := by
  unfold reactions at h
  split at h
  · split at h
    · cases h
    · split at h
      · exact .inl ⟨_, List.mem_singleton.1 h⟩
      · cases h
  · split at h
    · exact .inr (of_mem_offers h)
    · cases h

theorem of_mem_answers {m : Message} {o : Occurrence} (h : o ∈ answers m) :
    o = .answered ∧ settles m = true := by
  unfold answers at h
  split at h
  case isTrue hm => exact ⟨List.mem_singleton.1 h, hm⟩
  case isFalse => cases h

/-- Of all that an input means for a node, only the end of a session goes past flow control, and
only an answer of the node counts as one. -/
theorem of_mem_occurrences {f : Flow} {a : Address} {i : Input} {o : Occurrence}
    (h : o ∈ f.occurrences a i) :
    o.Permitted f.limit a ∧ (i ≠ .disable → o.urgent = []) ∧
      (o = .answered → ∃ m, i = .receive m ∧ m.address = a ∧ settles m = true) := by
  cases i with
  | send b r =>
    simp only [occurrences] at h
    split at h
    · obtain ⟨rfl, hr⟩ := of_mem_offers h
      exact ⟨hr, fun _ => rfl, fun ho => by cases ho⟩
    · cases h
  | receive m =>
    simp only [occurrences] at h
    split at h
    case isTrue ha =>
      rcases List.mem_cons.1 h with rfl | h
      · exact ⟨trivial, fun _ => rfl, fun ho => by cases ho⟩
      · split at h
        · rw [List.mem_singleton.1 h]
          exact ⟨trivial, fun _ => rfl, fun ho => by cases ho⟩
        · rcases List.mem_append.1 h with h | h
          · obtain ⟨bytes, rfl⟩ | ⟨rfl, hr⟩ := of_mem_reactions h
            · exact ⟨trivial, fun _ => rfl, fun ho => by cases ho⟩
            · exact ⟨ha ▸ hr, fun _ => rfl, fun ho => by cases ho⟩
          · obtain ⟨rfl, hm⟩ := of_mem_answers h
            exact ⟨trivial, fun _ => rfl, fun _ => ⟨m, rfl, ha, hm⟩⟩
    case isFalse =>
      split at h
      · rw [List.mem_singleton.1 h]
        exact ⟨trivial, fun _ => rfl, fun ho => by cases ho⟩
      · cases h
  | disable =>
    simp only [occurrences] at h
    split at h
    · split at h
      case h_1 hc =>
        rw [List.mem_singleton.1 h]
        have hfits := (f.checkFits_eq_ok_iff _ _).1 hc
        exact ⟨⟨hfits, by decide⟩, fun hi => absurd rfl hi, fun ho => by cases ho⟩
      case h_2 => cases h
    · cases h

theorem accepted_offers (f : Flow) (a : Address) (r : Request) :
    (f.offers a r).flatMap Occurrence.accepted =
      match f.send a r with
      | .ok _ => [r]
      | .error _ => [] := by
  cases hc : f.checkFits a r with
  | error e => simp [offers, hc, send_eq_error hc]
  | ok u => simp [offers, hc, send_eq_ok_of_fits hc, Occurrence.accepted]

theorem accepted_reactions (f : Flow) (m : Message) :
    (f.reactions m).flatMap Occurrence.accepted =
      if m.type = .nodeNew ∨ m.type = .nodeLost then
        match f.send m.address (changeAck m) with
        | .ok _ => [changeAck m]
        | .error _ => []
      else [] := by
  by_cases hchange : m.type = .nodeNew ∨ m.type = .nodeLost
  · have hcap : m.type ≠ .pktCapacity := by
      rcases hchange with h | h <;> rw [h] <;> decide
    rw [if_pos hchange, ← accepted_offers, reactions, if_neg hcap, if_pos hchange]
  · rw [if_neg hchange, List.flatMap_eq_nil_iff]
    intro o ho
    simp only [reactions, hchange, if_false] at ho
    split at ho
    · split at ho
      · cases ho
      · split at ho
        · rw [List.mem_singleton.1 ho]; rfl
        · cases ho
    · cases ho

/-- The messages accepted for a node are those offered to it. -/
theorem valuesAt_accepted (f : Flow) (i : Input) (b : Address) :
    valuesAt b (f.accepted i) = (f.occurrences b i).flatMap Occurrence.accepted := by
  cases i with
  | disable =>
    simp only [accepted, valuesAt_nil, occurrences]
    split
    · split <;> rfl
    · rfl
  | send a r =>
    by_cases hb : a = b
    · subst hb
      simp only [accepted, occurrences, if_true, accepted_offers]
      cases f.send a r <;> simp [valuesAt_cons]
    · simp only [accepted, occurrences, hb, if_false]
      cases f.send a r <;> simp [valuesAt_cons, hb]
  | receive m =>
    have hsame : (f.observe m).reactions m = f.reactions m := rfl
    have hreact := (f.observe m).accepted_reactions m
    rw [hsame] at hreact
    by_cases hb : m.address = b
    · -- only a reaction can be accepted
      subst hb
      have hocc : (f.occurrences m.address (.receive m)).flatMap Occurrence.accepted =
          if m.type = .stall then [] else (f.reactions m).flatMap Occurrence.accepted := by
        have hanswers : (answers m).flatMap Occurrence.accepted = [] := by
          unfold answers
          split <;> rfl
        simp only [occurrences, if_true, List.flatMap_cons, Occurrence.accepted,
          List.nil_append]
        split
        · rfl
        · rw [List.flatMap_append, hanswers, List.append_nil]
      rw [hocc, hreact]
      simp only [accepted]
      by_cases hchange : m.type = .nodeNew ∨ m.type = .nodeLost
      · have hstall : m.type ≠ .stall := by
          rcases hchange with h | h <;> rw [h] <;> decide
        rw [if_pos hchange, if_neg hstall, if_pos hchange]
        cases (f.observe m).send m.address (changeAck m) <;> simp [valuesAt_cons]
      · simp [hchange]
    · have hocc : (f.occurrences b (.receive m)).flatMap Occurrence.accepted = [] := by
        simp only [occurrences, hb, if_false]
        split <;> rfl
      rw [hocc]
      simp only [accepted]
      split
      · cases (f.observe m).send m.address (changeAck m) <;> simp [valuesAt_cons, hb]
      · rfl

/-! ## A run seen from one node -/

theorem run_cons (f : Flow) (i : Input) (is : List Input) :
    f.run (i :: is) = (((f.step i).1.run is).1,
      ⟨f.accepted i ++ ((f.step i).1.run is).2.accepted,
        (f.step i).2 ++ ((f.step i).1.run is).2.appended⟩) := rfl

/-- The occurrences `os` tell all that the inputs `is` do to the node at `a`, which is `n` before.
Only the end of a session sends past flow control. -/
structure Explains (f : Flow) (is : List Input) (a : Address) (n : Node) (os : List Occurrence) :
    Prop where
  entry : (f.run is).1.table.nodes.find? a = some (n.meetAll a os).1
  sent : sentTo a (f.run is).2.appended = (n.meetAll a os).2
  accepted : valuesAt a (f.run is).2.accepted = os.flatMap Occurrence.accepted
  permitted : ∀ o ∈ os, o.Permitted f.limit a
  calm : .disable ∉ is → ∀ o ∈ os, o.urgent = []

/-- An input and those after it, of which it is known what they do to the node. -/
theorem Explains.cons {f : Flow} {i : Input} {is : List Input} {a : Address} {n : Node}
    {os : List Occurrence}
    (hsent : sentTo a (f.step i).2 = (n.meetAll a (f.occurrences a i)).2)
    (h : Explains (f.step i).1 is a (n.meetAll a (f.occurrences a i)).1 os) :
    Explains f (i :: is) a n (f.occurrences a i ++ os) := by
  constructor
  · rw [run_cons, Node.meetAll_append]
    exact h.entry
  · rw [run_cons, Node.meetAll_append, sentTo_append, hsent, h.sent]
  · rw [run_cons, valuesAt_append, valuesAt_accepted, h.accepted, List.flatMap_append]
  · intro o ho
    rcases List.mem_append.1 ho with ho | ho
    · exact (of_mem_occurrences ho).1
    · rw [← f.limit_step i]
      exact h.permitted o ho
  · intro hi o ho
    rw [List.mem_cons, not_or] at hi
    rcases List.mem_append.1 ho with ho | ho
    · exact (of_mem_occurrences ho).2.1 (Ne.symm hi.1)
    · exact h.calm hi.2 o ho

/-- A known node stays known and meets one occurrence after the other. -/
theorem run_known {f : Flow} {a : Address} {n : Node} (is : List Input)
    (h : f.table.nodes.find? a = some n) : ∃ os, Explains f is a n os := by
  induction is generalizing f n with
  | nil => exact ⟨[], h, rfl, rfl, by simp, by simp⟩
  | cons i rest ih =>
    obtain ⟨hentry, hsent⟩ := f.step_actsAs i a
    rw [NodeTable.node_of_find? h] at hentry hsent
    have hknown : (f.step i).1.table.nodes.find? a =
        some (n.meetAll a (f.occurrences a i)).1 := by
      rw [hentry]
      split
      case isTrue hnil => rw [h, hnil]; rfl
      case isFalse => rfl
    obtain ⟨os, hos⟩ := ih hknown
    exact ⟨_, hos.cons hsent⟩

/-- An unknown node stays unknown, or gets a new entry at some time and is known from then on. -/
theorem run_unknown {f : Flow} {a : Address} (is : List Input)
    (h : f.table.nodes.find? a = none) :
    ((f.run is).1.table.nodes.find? a = none ∧ sentTo a (f.run is).2.appended = [] ∧
        valuesAt a (f.run is).2.accepted = []) ∨
      ∃ stalled os, Explains f is a (.fresh f.table.defaultCredit stalled) os := by
  induction is generalizing f with
  | nil => exact .inl ⟨h, rfl, rfl⟩
  | cons i rest ih =>
    obtain ⟨hentry, hsent⟩ := f.step_actsAs i a
    have hnew : f.table.node a = .fresh f.table.defaultCredit (f.table.inheritsStall a) := by
      simp [NodeTable.node, h, Node.fresh]
    rw [hnew] at hentry hsent
    by_cases hnil : f.occurrences a i = []
    · -- nothing happens to the node
      rw [if_pos hnil, h] at hentry
      rcases ih hentry with ⟨h1, h2, h3⟩ | ⟨stalled, os, hos⟩
      · have hacc : valuesAt a (f.accepted i) = [] := by rw [valuesAt_accepted, hnil]; rfl
        rw [hnil] at hsent
        refine .inl ⟨h1, ?_, ?_⟩
        · rw [run_cons, sentTo_append, hsent, h2]; rfl
        · rw [run_cons, valuesAt_append, hacc, h3]; rfl
      · rw [defaultCredit_step] at hos
        have hnone : sentTo a (f.step i).2 =
            ((Node.fresh f.table.defaultCredit stalled).meetAll a (f.occurrences a i)).2 := by
          rw [hsent, hnil]; rfl
        have hlater : Explains (f.step i).1 rest a
            ((Node.fresh f.table.defaultCredit stalled).meetAll a (f.occurrences a i)).1 os := by
          rw [hnil]; exact hos
        exact .inr ⟨stalled, _, hlater.cons hnone⟩
    · -- its entry is made now
      rw [if_neg hnil] at hentry
      obtain ⟨os, hos⟩ := run_known rest hentry
      exact .inr ⟨f.table.inheritsStall a, _, hos.cons hsent⟩

end Flow
end RailBus
