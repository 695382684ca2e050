import RailBus.Proofs.Order
import RailBus.Proofs.Stall

/-!
# Nodes that were let go

A node above which another is stalled is stalled too, unless it was let go by a stall message from
further down. One input keeps this: it is a stall message that reaches the node
(`sparesLetGo_of_signals`), or it changes no flag (`sparesLetGo_of_quiet`).
-/

namespace RailBus

namespace Flow

variable {f : Flow} {i : Input} {m : Message} {d : Address} {n : Node} {is : List Input}

/-- After `is` the node at `d` is let go: the last stall message that reached it freed it, although
a node above the sender of the message was stalled. -/
inductive LetGo (f : Flow) (d : Address) : List Input → Prop
  | freed {is : List Input} {m : Message} {x : Address} :
      m.Signals d → m.stops = false →
      (f.run is).1.table.isStalled x = true → x.isAncestorOf m.address = true →
      ((f.run (is ++ [.receive m])).1.table.nodes.find? d).isSome →
      LetGo f d (is ++ [.receive m])
  | later {is : List Input} {i : Input} : LetGo f d is → ¬ i.Signals d → LetGo f d (is ++ [i])

theorem LetGo.known (h : LetGo f d is) : ((f.run is).1.table.nodes.find? d).isSome := by
  induction h with
  | freed _ _ _ _ hknown => exact hknown
  | later _ _ ih =>
    rw [run_snoc]
    exact known_step ih _

/-- Only the last input tells, if it is a stall message that reaches the node. -/
theorem letGo_snoc_iff :
    LetGo f d (is ++ [i]) ↔
      (∃ m x, i = .receive m ∧ m.Signals d ∧ m.stops = false ∧
        (f.run is).1.table.isStalled x = true ∧ x.isAncestorOf m.address = true ∧
        ((f.run (is ++ [i])).1.table.nodes.find? d).isSome) ∨
      LetGo f d is ∧ ¬ i.Signals d := by
  constructor
  · generalize hall : is ++ [i] = all
    intro h
    cases h with
    | freed hm hstops hx habove hknown =>
      obtain ⟨rfl, hi⟩ := List.append_inj' hall rfl
      cases hi
      exact .inl ⟨_, _, rfl, hm, hstops, hx, habove, hknown⟩
    | later h hi =>
      obtain ⟨rfl, heq⟩ := List.append_inj' hall rfl
      cases heq
      exact .inr ⟨h, hi⟩
  · rintro (⟨m, x, rfl, hm, hstops, hx, habove, hknown⟩ | ⟨h, hi⟩)
    · exact .freed hm hstops hx habove hknown
    · exact .later h hi

theorem letGo_snoc_of_quiet (hi : ¬ i.Signals d) : LetGo f d (is ++ [i]) ↔ LetGo f d is := by
  rw [letGo_snoc_iff]
  constructor
  · rintro (⟨m, x, rfl, hm, -⟩ | ⟨h, -⟩)
    · exact absurd hm hi
    · exact h
  · intro h
    exact .inr ⟨h, hi⟩

/-- A stall above a node that no stall message reaches was there before, on some node. -/
theorem exists_stalled_above_of_quiet {g : Flow} {a : Address}
    (ha : (g.step i).1.table.isStalled a = true) (had : a.isAncestorOf d = true)
    (hi : ¬ i.Signals d) : ∃ x, g.table.isStalled x = true ∧ x.isAncestorOf d = true := by
  obtain ⟨n, hn, hstalled⟩ := NodeTable.isStalled_iff.1 ha
  have hquiet : ¬ i.Signals a := fun hia => hi (hia.below (Address.isPrefixOf_of_isAncestorOf had))
  rw [stalled_of_quiet hn hquiet] at hstalled
  exact NodeTable.exists_stalled_above hstalled had

/-- Below stalled nodes those that were let go, and no others, are not stalled. -/
def SparesLetGo (f : Flow) (is : List Input) : Prop :=
  ∀ a d n, (f.run is).1.table.isStalled a = true → a.isAncestorOf d = true →
    (f.run is).1.table.nodes.find? d = some n → (n.stalled = false ↔ LetGo f d is)

/-- After a stall message the nodes it reached are as it says. It lets go where a node above its
sender is stalled. -/
theorem sparesLetGo_of_signals {a : Address}
    (ha : ((f.run is).1.step (.receive m)).1.table.isStalled a = true)
    (had : a.isAncestorOf d = true)
    (hd : ((f.run is).1.step (.receive m)).1.table.nodes.find? d = some n) (hm : m.Signals d) :
    n.stalled = false ↔ LetGo f d (is ++ [.receive m]) := by
  have hflag := stalled_of_signals hd hm
  rw [letGo_snoc_iff]
  constructor
  · intro hn
    have hstops : m.stops = false := by rw [← hflag, hn]
    obtain ⟨n', hn', hstalled⟩ := NodeTable.isStalled_iff.1 ha
    -- the message did not reach the stalled node, which lies above its sender
    have hquiet : ¬ m.Signals a := by
      intro hma
      rw [stalled_of_signals hn' hma, hstops] at hstalled
      cases hstalled
    have habove : a.isAncestorOf m.address = true :=
      Address.isAncestorOf_of_not_isPrefixOf (Address.isPrefixOf_of_isAncestorOf had) hm.2
        fun h => hquiet ⟨hm.1, h⟩
    have hbefore : (f.run is).1.table.isStalled a = true := by
      have hne : m.address ≠ a := Ne.symm (Address.isAncestorOf_iff.1 habove).2
      rw [find?_receive_of_other hne hquiet] at hn'
      exact NodeTable.isStalled_iff.2 ⟨n', hn', hstalled⟩
    refine .inl ⟨m, a, rfl, hm, hstops, hbefore, habove, ?_⟩
    rw [run_snoc, hd]
    rfl
  · rintro (⟨m', x, heq, -, hstops, -⟩ | ⟨-, hquiet⟩)
    · cases heq
      rw [hflag, hstops]
    · exact absurd hm hquiet

/-- Other inputs change no flags. A node that they make known takes over a stall from above. -/
theorem sparesLetGo_of_quiet {a : Address} (h : SparesLetGo f is)
    (ha : ((f.run is).1.step i).1.table.isStalled a = true) (had : a.isAncestorOf d = true)
    (hd : ((f.run is).1.step i).1.table.nodes.find? d = some n) (hi : ¬ i.Signals d) :
    n.stalled = false ↔ LetGo f d (is ++ [i]) := by
  obtain ⟨x, hx, hxd⟩ := exists_stalled_above_of_quiet ha had hi
  rw [letGo_snoc_of_quiet hi, stalled_of_quiet hd hi]
  cases hknown : (f.run is).1.table.nodes.find? d with
  | some n₀ =>
    rw [NodeTable.node_of_find? hknown]
    exact h x d n₀ hx hxd hknown
  | none =>
    have hinherits := NodeTable.inheritsStall_iff.2 ⟨x, hx, hxd⟩
    rw [NodeTable.stalled_node_of_unknown hknown, hinherits]
    constructor
    · intro hfalse
      cases hfalse
    · intro hprev
      have hsome := hprev.known
      rw [hknown] at hsome
      cases hsome

theorem sparesLetGo_run (hempty : ∀ a, f.table.nodes.find? a = none) (is : List Input) :
    SparesLetGo f is := by
  induction is using List.reverseRecOn with
  | nil =>
    intro a d n ha
    obtain ⟨n', hn', -⟩ := NodeTable.isStalled_iff.1 ha
    have hnone : f.table.nodes.find? a = some n' := hn'
    rw [hempty] at hnone
    cases hnone
  | append_singleton is i ih =>
    intro a d n ha had hd
    rw [run_snoc] at ha hd
    by_cases hi : i.Signals d
    · obtain ⟨m, rfl, hm⟩ := hi.receive
      exact sparesLetGo_of_signals ha had hd hm
    · exact sparesLetGo_of_quiet ih ha had hd hi

end Flow

namespace Link

/-- **What is below a stalled node is stalled, unless it was let go.** Whatever traffic a link
carries since it was new or reset, a known node above which another is stalled is stalled too, with
the exception of exactly the nodes that were let go. To no others below a stalled node is anything
sent, be it accepted then or released by the last input. -/
theorem stalled_below_stalled (config : Config) (sink : Sink) (past : List Event)
    (ts : List Traffic) :
    (begun config sink past).writer.Appends
        (((begun config sink past).ledger ts).appended.map Message.layout)
        ((begun config sink past).carryAll ts).writer ∧
      (∀ a d n, ((begun config sink past).carryAll ts).flow.table.isStalled a = true →
        a.isAncestorOf d = true →
        ((begun config sink past).carryAll ts).flow.table.nodes.find? d = some n →
        (n.stalled = false ↔
          Flow.LetGo (begun config sink past).flow d (ts.flatMap Traffic.inputs))) ∧
      (∀ a d r receipt, ((begun config sink past).carryAll ts).flow.table.isStalled a = true →
        a.isAncestorOf d = true →
        ¬ Flow.LetGo (begun config sink past).flow d (ts.flatMap Traffic.inputs) →
        (((begun config sink past).carryAll ts).send d r).2 = .ok receipt → receipt = .queued) ∧
      ∀ before i after, ts.flatMap Traffic.inputs = before ++ i :: after →
        ∀ a d, ((begun config sink past).flow.run (before ++ [i])).1.table.isStalled a = true →
          a.isAncestorOf d = true →
          ¬ Flow.LetGo (begun config sink past).flow d (before ++ [i]) →
          sentTo d (((begun config sink past).flow.run before).1.step i).2 = [] := by
  have hempty : ∀ a, (begun config sink past).flow.table.nodes.find? a = none := fun _ => rfl
  have htakes := (begun config sink past).carryAll_takes ts
  refine ⟨htakes.writer, ?_, ?_, ?_⟩
  · rw [htakes.flow]
    exact Flow.sparesLetGo_run hempty _
  · intro a d r receipt ha had hkept hsend
    have hspares := Flow.sparesLetGo_run hempty (ts.flatMap Traffic.inputs)
    rw [Flow.SparesLetGo, ← htakes.flow] at hspares
    have hstalled :
        (((begun config sink past).carryAll ts).flow.table.node d).stalled = true := by
      cases hd : ((begun config sink past).carryAll ts).flow.table.nodes.find? d with
      | some n =>
        have hn := mt (hspares a d n ha had hd).1 hkept
        rw [NodeTable.node_of_find? hd]
        exact (Bool.not_eq_false _).mp hn
      | none =>
        rw [NodeTable.stalled_node_of_unknown hd]
        exact NodeTable.inheritsStall_iff.2 ⟨a, ha, had⟩
    exact queued_of_stalled hstalled hsend
  · intro before i after hsplit a d ha had hkept
    have hi : i ≠ .disable := by
      rintro rfl
      refine disable_notMem_inputs ts ?_
      rw [hsplit]
      simp
    have hspares := Flow.sparesLetGo_run hempty (before ++ [i])
    refine Flow.sentTo_of_stalled hi fun n hn => ?_
    rw [← Flow.run_snoc] at hn
    exact (Bool.not_eq_false _).mp (mt (hspares a d n ha had hn).1 hkept)

/-- The child stops, and then the grandchild lets go. -/
def stopThenLetGo : List Traffic :=
  [.handle (.ok [stallMessage child 1]), .handle (.ok [stallMessage grandchild 0])]

/-- Nodes that were let go exist: a stalled node does not stop all that is below it. -/
theorem sent_below_stalled :
    ((Link.new {}).carryAll stopThenLetGo).flow.table.isStalled child = true ∧
      child.isAncestorOf grandchild = true ∧
      grandchild ∈ ((Link.new {}).carryAll stopThenLetGo).flow.table.knownNodes ∧
      ((Link.new {}).carryAll stopThenLetGo).flow.table.isStalled grandchild = false ∧
      (((Link.new {}).carryAll stopThenLetGo).send grandchild command).2 = .ok (.buffered 1) := by
  decide +kernel

end Link
end RailBus
