import RailBus.Proofs.Traffic

/-!
# Order

What is accepted for a node leaves for it in the order of acceptance, and what has not left yet
waits in that order too. One occurrence keeps this (`meet_order`) whichever way messages leave:
at once, with an answer, with a report of the buffer size, or at the end of a stall.
-/

namespace RailBus

namespace Node

variable {limit : Nat} {a : Address} {n : Node}

theorem meet_order {o : Occurrence} (h : n.PendingFit limit a) (ho : o.Permitted limit a)
    (hcalm : o.urgent = []) :
    (n.meet a o).2.map Message.request ++ (n.meet a o).1.pending = n.pending ++ o.accepted := by
  have horder := n.regulate_order o
  rw [hcalm, List.nil_append] at horder
  rw [meet_eq h ho, numbered_request]
  exact horder

theorem meetAll_order {os : List Occurrence} (h : n.PendingFit limit a)
    (ho : ∀ o ∈ os, o.Permitted limit a) (hcalm : ∀ o ∈ os, o.urgent = []) :
    (n.meetAll a os).2.map Message.request ++ (n.meetAll a os).1.pending =
      n.pending ++ os.flatMap Occurrence.accepted := by
  induction os generalizing n with
  | nil => simp [meetAll]
  | cons o rest ih =>
    have hfit := pendingFit_meet h (ho o (by simp))
    have hfirst := meet_order h (ho o (by simp)) (hcalm o (by simp))
    have hrest := ih hfit (fun o h => ho o (List.mem_cons_of_mem _ h))
      (fun o h => hcalm o (List.mem_cons_of_mem _ h))
    rw [meetAll_cons, List.map_append, List.append_assoc, hrest, ← List.append_assoc, hfirst,
      List.flatMap_cons, List.append_assoc]

end Node

/-! ## All nodes together -/

theorem sentTo_eq_valuesAt (a : Address) (ms : List Message) :
    sentTo a ms = valuesAt a (ms.map fun m => (m.address, m)) := by
  induction ms with
  | nil => rfl
  | cons m rest ih =>
    rw [List.map_cons, valuesAt_cons, ← ih]
    by_cases h : m.address = a <;> simp [sentTo, h]

theorem sum_length_sentTo {α : Type} (t : AddressMap α) (ms : List Message)
    (h : ∀ m ∈ ms, m.address ∈ t.keys) :
    (t.keys.map fun a => (sentTo a ms).length).sum = ms.length := by
  simp only [sentTo_eq_valuesAt]
  rw [t.sum_length_valuesAt, List.length_map]
  intro x hx
  obtain ⟨m, hm, rfl⟩ := List.mem_map.1 hx
  exact h m hm

theorem NodeTable.totalPending_eq_sum (t : NodeTable) :
    t.totalPending = (t.knownNodes.map fun a => (t.node a).pending.length).sum := by
  rw [totalPending, List.length_flatMap, knownNodes, AddressMap.keys, List.map_map]
  congr 1
  refine List.map_congr_left fun x hx => ?_
  have hnode : t.node x.1 = x.2 := node_of_find? (AddressMap.find?_of_mem hx)
  simp [hnode]

namespace Flow

variable {f : Flow} {is : List Input}

/-- What leaves for a node and then waits is what waited before and what was accepted. -/
theorem run_pending {a : Address} (hcalm : .disable ∉ is)
    (hfit : ∀ n, f.table.nodes.find? a = some n → n.PendingFit f.limit a) :
    (sentTo a (f.run is).2.appended).map Message.request ++
        ((f.run is).1.table.node a).pending =
      (f.table.node a).pending ++ valuesAt a (f.run is).2.accepted := by
  cases hknown : f.table.nodes.find? a with
  | some n =>
    obtain ⟨os, hos⟩ := run_known is hknown
    have horder := Node.meetAll_order (hfit n hknown) hos.permitted (hos.calm hcalm)
    rw [hos.sent, hos.accepted, NodeTable.node_of_find? hos.entry, NodeTable.node_of_find? hknown,
      horder]
  | none =>
    have hnone : (f.table.node a).pending = [] := by simp [NodeTable.node, hknown]
    rw [hnone, List.nil_append]
    rcases run_unknown is hknown with ⟨hunknown, hsent, haccepted⟩ | ⟨stalled, os, hos⟩
    · rw [hsent, haccepted]
      simp [NodeTable.node, hunknown]
    · have hfresh := Node.pendingFit_fresh f.limit a f.table.defaultCredit stalled
      have horder := Node.meetAll_order hfresh hos.permitted (hos.calm hcalm)
      rw [hos.sent, hos.accepted, NodeTable.node_of_find? hos.entry, horder]
      rfl

/-- What a run from an empty table did for one node. Its messages are put into packets and wait in
the order they were accepted in, and all of them fit. -/
theorem run_order (hempty : ∀ a, f.table.nodes.find? a = none) (hcalm : .disable ∉ is)
    (a : Address) :
    (sentTo a (f.run is).2.appended).map Message.request ++
        ((f.run is).1.table.node a).pending = valuesAt a (f.run is).2.accepted ∧
      ∀ r ∈ valuesAt a (f.run is).2.accepted, r.Fits f.limit a := by
  constructor
  · have hpending := run_pending (a := a) hcalm fun n hn => by
      rw [hempty] at hn
      cases hn
    have hnone : (f.table.node a).pending = [] := by simp [NodeTable.node, hempty]
    rw [hpending, hnone, List.nil_append]
  · rcases run_unknown is (hempty a) with ⟨-, -, haccepted⟩ | ⟨stalled, os, hos⟩
    · simp [haccepted]
    · intro r hr
      rw [hos.accepted] at hr
      obtain ⟨o, ho, hr⟩ := List.mem_flatMap.1 hr
      have hpermitted := hos.permitted o ho
      cases o with
      | offered r' => rw [List.mem_singleton.1 hr]; exact hpermitted
      | _ => cases hr

/-- Only nodes that became known were sent anything, and only for them was anything accepted. -/
theorem known_of_run (hempty : ∀ a, f.table.nodes.find? a = none) {a : Address}
    (h : sentTo a (f.run is).2.appended ≠ [] ∨ valuesAt a (f.run is).2.accepted ≠ []) :
    a ∈ (f.run is).1.table.knownNodes := by
  rcases run_unknown is (hempty a) with ⟨-, hsent, haccepted⟩ | ⟨stalled, os, hos⟩
  · rcases h with h | h
    · exact absurd hsent h
    · exact absurd haccepted h
  · exact AddressMap.mem_keys_of_find? hos.entry

/-- Every accepted message was put into a packet or waits. -/
theorem run_total (hempty : ∀ a, f.table.nodes.find? a = none) (hcalm : .disable ∉ is) :
    (f.run is).2.appended.length + (f.run is).1.table.totalPending =
      (f.run is).2.accepted.length := by
  have hsent : ∀ m ∈ (f.run is).2.appended, m.address ∈ (f.run is).1.table.knownNodes := by
    intro m hm
    refine known_of_run hempty (.inl ?_)
    exact List.ne_nil_of_mem (List.mem_filter.2 ⟨hm, by simp⟩)
  have haccepted : ∀ x ∈ (f.run is).2.accepted, x.1 ∈ (f.run is).1.table.knownNodes := by
    intro x hx
    refine known_of_run hempty (.inr ?_)
    exact List.ne_nil_of_mem (mem_valuesAt.2 hx)
  have hlength : ∀ a, (valuesAt a (f.run is).2.accepted).length =
      (sentTo a (f.run is).2.appended).length + ((f.run is).1.table.node a).pending.length := by
    intro a
    rw [← (run_order hempty hcalm a).1, List.length_append, List.length_map]
  calc (f.run is).2.appended.length + (f.run is).1.table.totalPending
      = ((f.run is).1.table.knownNodes.map fun a =>
          (sentTo a (f.run is).2.appended).length).sum +
        ((f.run is).1.table.knownNodes.map fun a =>
          ((f.run is).1.table.node a).pending.length).sum := by
        rw [NodeTable.totalPending_eq_sum]
        exact congrArg (· + _) (sum_length_sentTo _ _ hsent).symm
    _ = ((f.run is).1.table.knownNodes.map fun a =>
          (valuesAt a (f.run is).2.accepted).length).sum := by
        simp only [hlength, List.sum_map_add]
    _ = (f.run is).2.accepted.length := AddressMap.sum_length_valuesAt _ _ haccepted

end Flow

namespace Link

/-- A link that was reset after `past`, or never used. -/
def begun (config : Config) (sink : Sink) (past : List Event) : Link :=
  ((Link.new config sink).run past).reset

theorem begun_nil (config : Config) (sink : Sink) : begun config sink [] = Link.new config sink :=
  rfl

theorem disable_notMem_inputs (ts : List Traffic) : .disable ∉ ts.flatMap Traffic.inputs := by
  intro h
  obtain ⟨t, -, h⟩ := List.mem_flatMap.1 h
  cases t with
  | send a r => simp [Traffic.inputs] at h
  | flush => simp [Traffic.inputs] at h
  | handle result => cases result <;> simp [Traffic.inputs] at h

/-- **Nothing is lost, doubled or overtaken.** Whatever traffic a link carries since it was new or
reset, its writer is given the messages on the account. For each node these are, with what waits
for it behind them, the messages accepted for it in the order of acceptance. All of them can be
encoded, whatever number they get, so none is dropped, and the counts agree. -/
theorem sent_append_pending_eq_accepted (config : Config) (sink : Sink) (past : List Event)
    (ts : List Traffic) :
    (begun config sink past).writer.Appends
        (((begun config sink past).ledger ts).appended.map Message.layout)
        ((begun config sink past).carryAll ts).writer ∧
      (∀ a,
        (sentTo a ((begun config sink past).ledger ts).appended).map Message.request ++
            (((begun config sink past).carryAll ts).flow.table.node a).pending =
          valuesAt a ((begun config sink past).ledger ts).accepted) ∧
      (∀ a r, (a, r) ∈ ((begun config sink past).ledger ts).accepted →
        ∀ seq, (r.toMessage a seq).encode = .ok (r.toMessage a seq).layout) ∧
      ((begun config sink past).carryAll ts).writer.messagesSent +
          ((begun config sink past).carryAll ts).flow.table.totalPending =
        (begun config sink past).writer.messagesSent +
          ((begun config sink past).ledger ts).accepted.length := by
  have hempty : ∀ a, (begun config sink past).flow.table.nodes.find? a = none := fun _ => rfl
  have hcalm := disable_notMem_inputs ts
  have htakes := (begun config sink past).carryAll_takes ts
  refine ⟨htakes.writer, fun a => ?_, fun a r har seq => ?_, ?_⟩
  · rw [htakes.flow]
    exact (Flow.run_order hempty hcalm a).1
  · have hfits := (Flow.run_order hempty hcalm a).2 r (mem_valuesAt.2 har)
    exact Message.encode_of_fits (hfits.fits_toMessage seq)
  · have hcount := htakes.writer.messagesSent_eq
    have htotal := Flow.run_total hempty hcalm
    rw [htakes.flow, hcount, List.length_map, Nat.add_assoc, htotal]
    rfl

end Link
end RailBus
