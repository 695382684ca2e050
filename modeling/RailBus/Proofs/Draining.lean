import RailBus.Proofs.Credit

/-!
# What new credit lets go

When an answer gives credit back, or a node tells that it can take more, requests that waited go
out: as many from the front as the credit covers, together with all that need none up to the first
that is not covered (`drained_as_far_as_credit_goes`). Whether they are let go at once or one by one,
with a new look at the credit before each, makes no difference (`letsGo_drain`).
-/

namespace RailBus
namespace Node

/-- The longest part at the front of `rs` that takes no more than `credit`. -/
structure IsLongest (credit : Nat) (rs front : List Request) : Prop where
  isPrefix : front <+: rs
  covered : front.countP Request.consumesCredit ≤ credit
  longest : ∀ other, other <+: rs → other.countP Request.consumesCredit ≤ credit → other <+: front

/-- The first request that waits and the node without it, if it may go out now. Credit in use is
counted no further than a byte goes. -/
def next? (n : Node) : Option (Request × Node) :=
  match n.pending with
  | [] => none
  | r :: rest =>
    if n.stalled || r.consumesCredit && n.capacity.toNat - min n.inUse 255 == 0 then none
    else some (r, { n with pending := rest, inUse := n.inUse + r.consumesCredit.toNat })

/-- One request goes out after the other, as long as the next one may. -/
inductive LetsGo : Node → List Request → Node → Prop
  | done {n : Node} : n.next? = none → LetsGo n [] n
  | next {n n' n'' : Node} {r : Request} {rs : List Request} :
      n.next? = some (r, n') → LetsGo n' rs n'' → LetsGo n (r :: rs) n''

/-- `n`, with credit that is new to it, lets `released` go and is left as `n'`. -/
structure Drains (n : Node) (released : List Request) (n' : Node) : Prop where
  order : released ++ n'.pending = n.pending
  stopped : n.stalled = true → released = []
  longest : n.stalled = false → IsLongest (n.capacity.toNat - n.inUse) n.pending released
  inUse : n'.inUse = n.inUse + released.countP Request.consumesCredit
  /-- no request that needs no credit is left in front -/
  waits : n.stalled = false → ∀ r rest, n'.pending = r :: rest → r.consumesCredit = true
  others : n' = { n with pending := n'.pending, inUse := n'.inUse }
  oneByOne : n.LetsGo released n'

/-- The first request may go out: nothing stops the node, and there is credit if it takes any. -/
def MayGo (n : Node) (r : Request) : Prop := n.stalled = false ∧ r.consumesCredit.toNat ≤ n.credit

/-- What is left of the node when its first request has gone out. -/
def without (n : Node) (r : Request) (rest : List Request) : Node :=
  { n with pending := rest, inUse := n.inUse + r.consumesCredit.toNat }

variable {n : Node}

/-! ## The longest part that is covered -/

theorem isLongest_admissible (credit : Nat) (rs : List Request) :
    IsLongest credit rs (admissible credit rs).1 where
  isPrefix := ⟨_, admissible_append credit rs⟩
  covered := charge_admissible_le credit rs
  longest := by
    intro other hother hcovered
    have hadmitted : (admissible credit rs).1 <+: rs := ⟨_, admissible_append credit rs⟩
    rcases List.prefix_or_prefix_of_prefix hother hadmitted with h | ⟨more, rfl⟩
    · exact h
    · -- what goes on behind the admitted part starts with the request that is not covered
      have hmore : more <+: (admissible credit rs).2 := by
        rw [← List.prefix_append_right_inj (admissible credit rs).1, admissible_append]
        exact hother
      cases more with
      | nil => simp
      | cons r more =>
        obtain ⟨rest, hheld⟩ := hmore
        obtain ⟨hr, hcharge⟩ := admissible_held hheld.symm
        simp only [charge] at hcharge
        simp only [List.countP_append, List.countP_cons, hr, if_true, hcharge] at hcovered
        omega

/-! ## One by one -/

theorem drain_of_stalled (h : n.stalled = true) : n.drain = (n, []) := by
  simp [drain, h]

theorem drain_of_free (h : n.stalled = false) :
    n.drain =
      ({ n with
          pending := (admissible n.credit n.pending).2
          inUse := n.inUse + charge (admissible n.credit n.pending).1 },
        (admissible n.credit n.pending).1) := by
  simp [drain, h]

theorem drain_of_released_nil (h : n.drain.2 = []) : n.drain.1 = n := by
  have hpending := n.drain_append
  rw [h, List.nil_append] at hpending
  rw [drain_eq, hpending, h]
  rfl

section

variable {r : Request} {rest : List Request}

theorem next?_of_mayGo (hp : n.pending = r :: rest) (h : n.MayGo r) :
    n.next? = some (r, n.without r rest) := by
  obtain ⟨hs, hcredit⟩ := h
  rw [credit_eq_sub_min] at hcredit
  cases hr : r.consumesCredit with
  | false => simp [next?, without, hp, hs, hr]
  | true =>
    rw [hr] at hcredit
    simp [next?, without, hp, hs, hr, Nat.ne_of_gt hcredit]

theorem drain_of_mayGo (hp : n.pending = r :: rest) (h : n.MayGo r) :
    n.drain = ((n.without r rest).drain.1, r :: (n.without r rest).drain.2) := by
  obtain ⟨hs, hcredit⟩ := h
  rw [drain_of_free hs, drain_of_free (n := n.without r rest) hs, hp]
  cases hr : r.consumesCredit with
  | false => simp [without, admissible, charge_cons, credit, hr]
  | true =>
    rw [hr, Bool.toNat_true] at hcredit
    obtain ⟨k, hk⟩ := Nat.exists_eq_add_of_le' hcredit
    have hleft : (n.without r rest).credit = k := by
      simp only [credit, without, hr, Bool.toNat_true] at hk ⊢
      omega
    rw [hleft, hk]
    simp [without, admissible, charge_cons, hr]
    omega

theorem next?_of_not_mayGo (hp : n.pending = r :: rest) (h : ¬ n.MayGo r) : n.next? = none := by
  rw [MayGo, credit_eq_sub_min] at h
  cases hs : n.stalled <;> cases hr : r.consumesCredit <;> simp_all [next?]

theorem released_of_not_mayGo (hp : n.pending = r :: rest) (h : ¬ n.MayGo r) :
    n.drain.2 = [] := by
  rw [MayGo] at h
  cases hs : n.stalled <;> cases hr : r.consumesCredit <;> simp_all [drain, admissible]

end

/-- Going out one by one, the requests are those that credit covers at once. -/
theorem letsGo_drain (n : Node) : n.LetsGo n.drain.2 n.drain.1 := by
  induction hp : n.pending generalizing n with
  | nil =>
    have hnone : n.drain.2 = [] := by
      have hpending := n.drain_append
      rw [hp] at hpending
      exact (List.append_eq_nil_iff.1 hpending).1
    rw [drain_of_released_nil hnone, hnone]
    exact .done (by simp [next?, hp])
  | cons r rest ih =>
    by_cases hgo : n.MayGo r
    · rw [drain_of_mayGo hp hgo]
      exact .next (next?_of_mayGo hp hgo) (ih _ rfl)
    · have hnone := released_of_not_mayGo hp hgo
      rw [drain_of_released_nil hnone, hnone]
      exact .done (next?_of_not_mayGo hp hgo)

theorem drains_drain (n : Node) : n.Drains n.drain.2 n.drain.1 where
  order := n.drain_append
  stopped := by
    intro h
    rw [drain_of_stalled h]
  longest := by
    intro h
    rw [drain_of_free h]
    exact isLongest_admissible n.credit n.pending
  inUse := by rw [drain_eq]; rfl
  waits := by
    intro h r rest hp
    rw [drain_of_free h] at hp
    exact (admissible_held hp).1
  others := n.drain_frame
  oneByOne := n.letsGo_drain

end Node

namespace NodeTable

/-- **New credit lets the longest part go that it covers.** What an answer, or a report that is
adopted, lets go is what waited longest, and the rest goes on waiting. It is nothing if the node is
stalled; otherwise it is the longest part at the front that takes no more than the credit that the
node then has left, if it has any, so that a request which needs credit is the first to go on
waiting. Credit is in use for those that went and need it, and nothing else is changed by letting
them go, at this node or any other. -/
theorem drained_as_far_as_credit_goes (t : NodeTable) (a : Address) :
    (∃ n', (t.release a).1 = t.put a n' ∧
      Node.Drains
        { t.node a with
            outstanding := (t.node a).outstanding.tail
            inUse := (t.node a).inUse - 1 }
        (t.release a).2.2 n') ∧
      ∀ bytes, t.honorReports = true → bytes ≠ 0 →
        ∃ n', (t.learn a bytes).1 = t.put a n' ∧
          Node.Drains { t.node a with capacity := max (bytes / 4) 1 } (t.learn a bytes).2 n' := by
  refine ⟨⟨_, rfl, Node.drains_drain _⟩, fun bytes hhonor hbytes => ?_⟩
  have hlearn : t.learn a bytes = t.update a (·.learn bytes) := by
    simp [learn, hhonor, hbytes]
  rw [hlearn]
  exact ⟨_, rfl, Node.drains_drain _⟩

/-- The child has more credit in use than it grants, and commands wait behind acknowledgements. -/
def overdrawn : NodeTable :=
  (NodeTable.new 4 true).put Link.child
    { capacity := 1
      inUse := 3
      pending := [{ type := .nodeChangedAck }, Link.command, { type := .nodeChangedAck },
        Link.command, { type := .nodeChangedAck }, Link.command] }

/-- An answer lets the first acknowledgement go. A report of 20 bytes gives credit for two commands,
and the acknowledgement behind them needs none. -/
theorem acknowledgements_let_go :
    (overdrawn.release Link.child).2.2 = [{ type := .nodeChangedAck }] ∧
      Node.IsLongest 0 (overdrawn.node Link.child).pending [{ type := .nodeChangedAck }] ∧
      overdrawn.honorReports = true ∧ (20 : UInt8) ≠ 0 ∧
      (overdrawn.learn Link.child 20).2 =
        [{ type := .nodeChangedAck }, Link.command, { type := .nodeChangedAck },
          Link.command, { type := .nodeChangedAck }] ∧
      Node.IsLongest 2 (overdrawn.node Link.child).pending
        [{ type := .nodeChangedAck }, Link.command, { type := .nodeChangedAck },
          Link.command, { type := .nodeChangedAck }] := by
  have hanswer : (overdrawn.release Link.child).2.2 = [{ type := .nodeChangedAck }] := by
    decide +kernel
  have hreport : (overdrawn.learn Link.child 20).2 =
      [{ type := .nodeChangedAck }, Link.command, { type := .nodeChangedAck },
        Link.command, { type := .nodeChangedAck }] := by
    decide +kernel
  obtain ⟨⟨_, -, hanswered⟩, hlearn⟩ := drained_as_far_as_credit_goes overdrawn Link.child
  obtain ⟨_, -, hreported⟩ := hlearn 20 rfl (by decide)
  rw [hanswer] at hanswered
  rw [hreport] at hreported
  have hnode : (overdrawn.node Link.child).stalled = false ∧
      (overdrawn.node Link.child).capacity = 1 ∧ (overdrawn.node Link.child).inUse = 3 := by
    rw [overdrawn, node_put_self]
    exact ⟨rfl, rfl, rfl⟩
  obtain ⟨hstalled, hcapacity, hinUse⟩ := hnode
  have hlongest := hanswered.longest hstalled
  have hlongest' := hreported.longest hstalled
  rw [hcapacity, hinUse] at hlongest
  rw [hinUse] at hlongest'
  exact ⟨hanswer, hlongest, rfl, by decide, hreport, hlongest'⟩

end NodeTable
end RailBus
