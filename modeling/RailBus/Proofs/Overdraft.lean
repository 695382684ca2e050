import RailBus.Proofs.Correlation
import RailBus.Proofs.Routing
import RailBus.Proofs.Stall

/-!
# Credit is overdrawn by the end of a stall only

Flow control lets a request go where fewer are outstanding than the node can take, and looks at
this anew for every one of them (`awaited_meet_le`). Only the end of a stall does not ask. So
whatever else happens to a node, it is left with no more outstanding requests than before, or with
no more than it can take (`Spends`), and a node that has too many is sent none until enough are
answered (`awaited_regulated`).
-/

namespace RailBus

namespace Node

variable {limit : Nat} {a : Address} {n n' n'' : Node} {o : Occurrence}

/-! ## One occurrence -/

theorem credit_of_reserve {consumes : Bool} (h : (n.reserve consumes).2 = true) :
    consumes.toNat ≤ n.credit := by
  cases consumes with
  | false => exact Nat.zero_le _
  | true =>
    by_cases hcredit : n.credit = 0
    · simp [reserve, hcredit] at h
    · exact Nat.one_le_iff_ne_zero.2 hcredit

theorem capacity_drain (n : Node) : n.drain.1.capacity = n.capacity := by rw [drain_eq]

/-- The requests that are still to be answered when an occurrence lets others go. -/
def unanswered (n : Node) : Occurrence → List Outstanding
  | .answered => n.outstanding.tail
  | _ => n.outstanding

theorem outstanding_meet_eq (n : Node) (a : Address) (o : Occurrence) :
    (n.meet a o).1.outstanding = n.unanswered o ++ awaited (n.meet a o).2 := by
  cases o with
  | answered => exact n.outstanding_meet_answered a
  | _ => exact n.outstanding_meet a (by simp)

theorem length_unanswered_le (n : Node) (o : Occurrence) :
    (n.unanswered o).length ≤ n.outstanding.length := by
  cases o with
  | answered => simp [unanswered]
  | _ => exact Nat.le_refl _

/-- Flow control lets go no more than there is room for, unless a stall ends. -/
theorem charge_regulate_le (hinUse : n.inUse = n.outstanding.length) (ho : o.Permitted limit a)
    (hstall : o ≠ .stalled false) :
    charge (n.regulate o).2 ≤ (n.regulate o).1.capacity.toNat - (n.unanswered o).length := by
  cases o with
  | heard seq => exact Nat.zero_le _
  | offered r =>
    obtain ⟨hr, -⟩ | ⟨hr, -⟩ := n.reserve_cases r.consumesCredit
    · have hroom := n.credit_of_reserve (congrArg Prod.snd hr)
      rw [credit, hinUse] at hroom
      simp only [regulate, hr, charge_cons]
      simpa [charge, unanswered] using hroom
    · simp [regulate, hr, charge]
  | pushed r =>
    have hr : charge [r] = 0 := by simp [charge, ho.2]
    simp [regulate, hr]
  | answered =>
    have hdrain := n.settled.charge_drain_le
    rw [regulate_answered, capacity_drain, unanswered, List.length_tail, ← hinUse]
    exact hdrain
  | reported bytes =>
    have hdrain := charge_drain_le { n with capacity := max (bytes / bytesPerMessage) 1 }
    have hunanswered : n.unanswered (.reported bytes) = n.outstanding := rfl
    rw [regulate, learn, capacity_drain, hunanswered, ← hinUse]
    exact hdrain
  | stalled on =>
    cases on with
    | true => exact Nat.zero_le _
    | false => exact absurd rfl hstall

theorem awaited_meet_le (hfit : n.PendingFit limit a) (hinUse : n.inUse = n.outstanding.length)
    (ho : o.Permitted limit a) (hstall : o ≠ .stalled false) :
    (awaited (n.meet a o).2).length ≤
      (n.meet a o).1.capacity.toNat - (n.unanswered o).length := by
  rw [meet_eq hfit ho, length_awaited_numbered]
  exact charge_regulate_le hinUse ho hstall

/-- Only a report of the buffer size changes the capacity. -/
theorem capacity_meet (hfit : n.PendingFit limit a) (ho : o.Permitted limit a)
    (hreport : ∀ bytes, o ≠ .reported bytes) : (n.meet a o).1.capacity = n.capacity := by
  rw [meet_eq hfit ho]
  show (n.regulate o).1.capacity = n.capacity
  rw [regulate_eq_note]
  cases o with
  | reported bytes => exact absurd rfl (hreport bytes)
  | _ => rfl

/-! ## One occurrence after the other -/

/-- From `n` to `n'`, while `sent` went out, no credit was overdrawn. -/
structure Spends (n : Node) (sent : List Message) (n' : Node) : Prop where
  /-- what is outstanding beyond the capacity was so before -/
  bound : n'.outstanding.length ≤ max n.outstanding.length n'.capacity.toNat
  /-- there is more only for requests that are to be answered -/
  growth : n'.outstanding.length ≤ n.outstanding.length + (awaited sent).length
  /-- and where one was sent nothing is overdrawn -/
  covered : awaited sent ≠ [] → n'.outstanding.length ≤ n'.capacity.toNat

variable {sent sent' : List Message}

theorem spends_of_covered
    (hgrowth : n'.outstanding.length ≤ n.outstanding.length + (awaited sent).length)
    (hcovered : awaited sent ≠ [] → n'.outstanding.length ≤ n'.capacity.toNat) :
    n.Spends sent n' := by
  refine ⟨?_, hgrowth, hcovered⟩
  by_cases hnone : awaited sent = []
  · rw [hnone, List.length_nil] at hgrowth
    omega
  · have hcap := hcovered hnone
    omega

theorem Spends.refl (n : Node) : n.Spends [] n :=
  spends_of_covered (Nat.le_refl _) fun h => absurd rfl h

/-- What comes later spends by the same capacity. -/
theorem Spends.trans (h : n.Spends sent n')
    (h' : n'.Spends sent' n'') (hcapacity : n''.capacity = n'.capacity) :
    n.Spends (sent ++ sent') n'' := by
  have hgrowth := h.growth
  have hgrowth' := h'.growth
  apply spends_of_covered
  · rw [awaited_append, List.length_append]
    omega
  · intro hsome
    by_cases hnone : awaited sent' = []
    · have hfirst : awaited sent ≠ [] := by
        intro hsent
        rw [awaited_append, hsent, hnone] at hsome
        exact hsome rfl
      have hcovered := h.covered hfirst
      rw [hnone, List.length_nil] at hgrowth'
      rw [hcapacity]
      omega
    · exact h'.covered hnone

theorem spends_meet (hfit : n.PendingFit limit a) (hinUse : n.inUse = n.outstanding.length)
    (ho : o.Permitted limit a) (hstall : o ≠ .stalled false) :
    n.Spends (n.meet a o).2 (n.meet a o).1 := by
  have hroom := awaited_meet_le hfit hinUse ho hstall
  have hkept := n.length_unanswered_le o
  have hlength : (n.meet a o).1.outstanding.length =
      (n.unanswered o).length + (awaited (n.meet a o).2).length := by
    rw [outstanding_meet_eq, List.length_append]
  apply spends_of_covered
  · omega
  · intro hsome
    have hpos := List.length_pos_iff.2 hsome
    omega

/-- Only what is outstanding, and how much may be, matters. -/
theorem Spends.congr {k k' : Node} (h : n.Spends sent n') (hk : k.account = n.account)
    (hk' : k'.account = n'.account) : k.Spends sent k' := by
  simp only [account, Prod.mk.injEq] at hk hk'
  obtain ⟨hbound, hgrowth, hcovered⟩ := h
  rw [← hk.2.2, ← hk'.2.2] at hgrowth
  rw [← hk'.1, ← hk'.2.2] at hcovered
  exact spends_of_covered hgrowth hcovered

theorem spends_of_steady {os : List Occurrence} (hfit : n.PendingFit limit a)
    (hbalanced : n.Balanced) (ho : ∀ o ∈ os, o.Permitted limit a) (hstall : .stalled false ∉ os)
    (hreport : ∀ bytes, .reported bytes ∉ os) :
    n.Spends (n.meetAll a os).2 (n.meetAll a os).1 ∧
      (n.meetAll a os).1.capacity = n.capacity := by
  induction os generalizing n with
  | nil => exact ⟨Spends.refl n, rfl⟩
  | cons o rest ih =>
    have hpermitted := ho o (by simp)
    have hfirst := spends_meet hfit hbalanced.inUse hpermitted (List.ne_of_not_mem_cons hstall).symm
    have hsame := capacity_meet hfit hpermitted fun bytes =>
      (List.ne_of_not_mem_cons (hreport bytes)).symm
    obtain ⟨hrest, hcapacity⟩ := ih (pendingFit_meet hfit hpermitted)
      (balanced_meet hfit hpermitted hbalanced) (fun o h => ho o (List.mem_cons_of_mem _ h))
      (List.not_mem_of_not_mem_cons hstall)
      fun bytes => List.not_mem_of_not_mem_cons (hreport bytes)
    exact ⟨hfirst.trans hrest hcapacity, hcapacity.trans hsame⟩

/-- Nothing is overdrawn where no stall ends and the capacity changes at the start only. -/
theorem spends_meetAll {os : List Occurrence} (hfit : n.PendingFit limit a)
    (hbalanced : n.Balanced) (ho : ∀ o ∈ os, o.Permitted limit a) (hstall : .stalled false ∉ os)
    (hreport : ∀ bytes, .reported bytes ∉ os.tail) :
    n.Spends (n.meetAll a os).2 (n.meetAll a os).1 := by
  cases os with
  | nil => exact Spends.refl n
  | cons o rest =>
    have hpermitted := ho o (by simp)
    have hfirst := spends_meet hfit hbalanced.inUse hpermitted (List.ne_of_not_mem_cons hstall).symm
    obtain ⟨hrest, hcapacity⟩ := spends_of_steady (pendingFit_meet hfit hpermitted)
      (balanced_meet hfit hpermitted hbalanced) (fun o h => ho o (List.mem_cons_of_mem _ h))
      (List.not_mem_of_not_mem_cons hstall) hreport
    exact hfirst.trans hrest hcapacity

/-- To be heard takes no credit, so what comes of it may be looked at alone. -/
theorem spends_meetAll_heard {os : List Occurrence} (seq : UInt8) (hfit : n.PendingFit limit a)
    (hbalanced : n.Balanced) (ho : ∀ o ∈ os, o.Permitted limit a) (hstall : .stalled false ∉ os)
    (hreport : ∀ bytes, .reported bytes ∉ os.tail) :
    n.Spends (n.meetAll a (.heard seq :: os)).2 (n.meetAll a (.heard seq :: os)).1 := by
  obtain ⟨last, hheard⟩ := n.meet_heard a seq
  have hbalanced' : Balanced { n with lastReceived := last } :=
    ⟨hbalanced.inUse, hbalanced.capacity⟩
  have hspends := spends_meetAll (n := { n with lastReceived := last }) hfit hbalanced' ho hstall
    hreport
  rw [meetAll_cons, hheard]
  exact hspends.congr rfl rfl

end Node

namespace Flow

variable {f : Flow} {i : Input} {m : Message} {a : Address}

/-- The input lets the node at `a` go, with all that waits for it. -/
def Input.frees (a : Address) : Input → Bool
  | .receive m => closesPacket m && m.address.isPrefixOf a
  | .send _ _ | .disable => false

theorem Reached.defaultCredit {settings : Nat × UInt8 × Bool} (h : f.Reached settings) :
    f.table.defaultCredit = settings.2.1 := by
  obtain ⟨f₀, is, -, hsettings, rfl⟩ := h
  rw [← hsettings]
  exact congrArg (·.2.1) (f₀.run_settings is)

theorem Reached.sound {settings : Nat × UInt8 × Bool} (h : f.Reached settings)
    (hcredit : 1 ≤ settings.2.1) (a : Address) :
    (f.table.node a).Balanced ∧ (f.table.node a).PendingFit f.limit a := by
  rw [h.limit]
  cases hn : f.table.nodes.find? a with
  | some n =>
    obtain ⟨stalled, os, rfl, ho⟩ := h.history hn
    obtain ⟨⟨hbalanced, -⟩, hfit⟩ := Node.sound_of_history hcredit ho
    rw [NodeTable.node_of_find? hn]
    exact ⟨hbalanced, hfit⟩
  | none =>
    have hfresh : f.table.node a = .fresh settings.2.1 (f.table.inheritsStall a) := by
      simp [NodeTable.node, hn, Node.fresh, h.defaultCredit]
    rw [hfresh]
    exact ⟨⟨rfl, hcredit⟩, Node.pendingFit_fresh _ a _ _⟩

/-- Where an input lets nothing go, no stall of the node ends. -/
theorem stalled_notMem_occurrences (hi : i.frees a = false) :
    .stalled false ∉ f.occurrences a i := by
  intro h
  by_cases hsignals : i.Signals a
  · obtain ⟨m, rfl, hm⟩ := hsignals.receive
    have hstops : m.stops = true := by
      have hcloses : closesPacket m = !m.stops := by
        rw [closesPacket, Message.stops, hm.1, bne, Bool.not_not]
        rfl
      rw [Input.frees, hcloses, hm.2, Bool.and_true, Bool.not_eq_false'] at hi
      exact hi
    rw [occurrences_of_signals hm, hstops] at h
    split at h
    · simp at h
    · split at h <;> simp at h
  · exact Bool.false_ne_true (flag_of_mem_occurrences h hsignals true)

/-- Only a message of its own changes the capacity of a node. -/
theorem of_reported_mem_reactions {bytes : UInt8} (h : .reported bytes ∈ f.reactions m) :
    m.type = .pktCapacity := by
  unfold reactions at h
  split at h
  case isTrue hm => exact hm
  case isFalse =>
    split at h
    · cases (of_mem_offers h).1
    · cases h

theorem of_reported_mem_occurrences {bytes : UInt8} (h : .reported bytes ∈ f.occurrences a i) :
    ∃ m, i = .receive m ∧ m.address = a ∧ m.type = .pktCapacity := by
  cases i with
  | send b r =>
    simp only [occurrences] at h
    split at h
    · cases (of_mem_offers h).1
    · cases h
  | receive m =>
    simp only [occurrences] at h
    split at h
    case isTrue ha =>
      rcases List.mem_cons.1 h with h | h
      · cases h
      · split at h
        · cases List.mem_singleton.1 h
        · rcases List.mem_append.1 h with h | h
          · exact ⟨m, rfl, ha, of_reported_mem_reactions h⟩
          · cases (of_mem_answers h).1
    case isFalse =>
      split at h
      · cases List.mem_singleton.1 h
      · cases h
  | disable =>
    simp only [occurrences] at h
    split at h
    · split at h
      · cases List.mem_singleton.1 h
      · cases h
    · cases h

/-- It does so before the message counts as an answer. -/
theorem reported_notMem_tail (f : Flow) (m : Message) (bytes : UInt8) :
    .reported bytes ∉ (f.reactions m ++ answers m).tail := by
  intro h
  have hanswers : .reported bytes ∉ answers m := by
    intro h
    cases (of_mem_answers h).1
  by_cases hreport : .reported bytes ∈ f.reactions m
  · have hm := of_reported_mem_reactions hreport
    simp only [reactions, hm, if_true] at h
    split at h
    · exact hanswers (List.mem_of_mem_tail h)
    · split at h
      · exact hanswers h
      · exact hanswers (List.mem_of_mem_tail h)
  · rcases List.mem_append.1 (List.mem_of_mem_tail h) with h | h
    · exact hreport h
    · exact hanswers h

/-! ## Steps -/

/-- **A step overdraws no credit** unless it ends a stall. -/
theorem Reached.spends_step {settings : Nat × UInt8 × Bool} (h : f.Reached settings)
    (hcredit : 1 ≤ settings.2.1) (hi : i.frees a = false) :
    (f.table.node a).Spends (sentTo a (f.step i).2) ((f.step i).1.table.node a) := by
  obtain ⟨hbalanced, hfit⟩ := h.sound hcredit a
  have hpermitted : ∀ o ∈ f.occurrences a i, o.Permitted f.limit a := fun o ho =>
    (of_mem_occurrences ho).1
  have hstall := stalled_notMem_occurrences (f := f) hi
  rw [sentTo_step]
  refine Node.Spends.congr ?_ rfl (f.account_step i a)
  by_cases hown : ∃ m, i = .receive m ∧ m.address = a
  · obtain ⟨m, rfl, rfl⟩ := hown
    have hoccurrences : f.occurrences m.address (.receive m) =
        .heard m.seq :: if m.type = .stall then [signal m] else f.reactions m ++ answers m :=
      if_pos rfl
    rw [hoccurrences] at hpermitted hstall ⊢
    refine Node.spends_meetAll_heard m.seq hfit hbalanced
      (fun o ho => hpermitted o (List.mem_cons_of_mem _ ho)) (List.not_mem_of_not_mem_cons hstall)
      fun bytes => ?_
    split
    · exact List.not_mem_nil
    · exact f.reported_notMem_tail m bytes
  · refine Node.spends_meetAll hfit hbalanced hpermitted hstall fun bytes ho => hown ?_
    obtain ⟨m, hi, ha, -⟩ := of_reported_mem_occurrences (List.mem_of_mem_tail ho)
    exact ⟨m, hi, ha⟩

/-- The capacity of a node is its own to change. -/
theorem Reached.capacity_step {settings : Nat × UInt8 × Bool} (h : f.Reached settings)
    (hcredit : 1 ≤ settings.2.1) (hi : ∀ m, i = .receive m → m.type ≠ .pktCapacity) :
    ((f.step i).1.table.node a).capacity = (f.table.node a).capacity := by
  have hfit := (h.sound hcredit a).2
  have hpermitted : ∀ o ∈ f.occurrences a i, o.Permitted f.limit a := fun o ho =>
    (of_mem_occurrences ho).1
  have hstep : ∀ (n : Node) o, o ∈ f.occurrences a i → n.PendingFit f.limit a →
      n.capacity = (f.table.node a).capacity →
      (n.meet a o).1.capacity = (f.table.node a).capacity := by
    intro n o ho hfit hn
    rw [Node.capacity_meet hfit (hpermitted o ho), hn]
    rintro bytes rfl
    obtain ⟨m, rfl, -, hm⟩ := of_reported_mem_occurrences ho
    exact hi m rfl hm
  exact (congrArg Prod.fst (f.account_step i a)).trans
    (Node.meetAll_induction hstep hpermitted hfit rfl).1

/-- As long as the node is full after what an input settles, it gets no request. -/
theorem Reached.awaited_step_of_full {settings : Nat × UInt8 × Bool} (h : f.Reached settings)
    (hcredit : 1 ≤ settings.2.1) (hi : i.frees a = false)
    (hfull : ((f.step i).1.table.node a).capacity.toNat + (f.settled a i).length ≤
      (f.table.node a).outstanding.length) :
    awaited (sentTo a (f.step i).2) = [] := by
  by_contra hsome
  have hcovered := (h.spends_step hcredit hi).covered hsome
  have hlength := congrArg List.length (outstanding_step (h.atRest hcredit a) i)
  have hpos := List.length_pos_iff.2 hsome
  rw [List.length_append, List.length_append] at hlength
  omega

/-! ## Runs -/

/-- At every input the node has as many requests to answer as it can take, those apart that the
input answers. -/
def StaysFull (a : Address) (f : Flow) : List Input → Prop
  | [] => True
  | i :: rest =>
    ((f.step i).1.table.node a).capacity.toNat + (f.settled a i).length ≤
        (f.table.node a).outstanding.length ∧
      (f.step i).1.StaysFull a rest

instance decidableStaysFull (a : Address) :
    (f : Flow) → (is : List Input) → Decidable (f.StaysFull a is)
  | _, [] => isTrue trivial
  | f, i :: rest =>
    have := decidableStaysFull a (f.step i).1 rest
    inferInstanceAs (Decidable (_ ∧ _))

/-- What is sent to the node at `a` over a run, except on its being let go. -/
def regulated (a : Address) (f : Flow) : List Input → List Message
  | [] => []
  | i :: rest =>
    (if i.frees a then [] else sentTo a (f.step i).2) ++ (f.step i).1.regulated a rest

theorem Reached.awaited_regulated {settings : Nat × UInt8 × Bool} {is : List Input}
    (h : f.Reached settings) (hcredit : 1 ≤ settings.2.1) (hfull : f.StaysFull a is) :
    awaited (f.regulated a is) = [] := by
  induction is generalizing f with
  | nil => rfl
  | cons i rest ih =>
    have hrest := ih (h.run [i]) hfull.2
    rw [regulated, awaited_append]
    cases hi : i.frees a with
    | true => exact hrest
    | false =>
      have hfirst := h.awaited_step_of_full hcredit hi hfull.1
      simp only [Bool.false_eq_true, if_false, hfirst, List.nil_append]
      exact hrest

/-- An input that neither ends a stall nor tells what a node can take. -/
def Input.isPlain : Input → Bool
  | .receive m => !closesPacket m && m.type != .pktCapacity
  | .send _ _ | .disable => true

theorem Input.frees_of_isPlain (h : i.isPlain = true) (a : Address) : i.frees a = false := by
  cases i with
  | receive m =>
    simp only [isPlain, Bool.and_eq_true, Bool.not_eq_true'] at h
    rw [frees, h.1, Bool.false_and]
  | _ => rfl

theorem Input.type_of_isPlain (h : i.isPlain = true) :
    ∀ m, i = .receive m → m.type ≠ .pktCapacity := by
  rintro m rfl
  simp only [isPlain, Bool.and_eq_true, bne_iff_ne] at h
  exact h.2

/-- All nodes can take `credit` requests and have no more to answer. -/
def Within (credit : UInt8) (f : Flow) : Prop :=
  ∀ a, (f.table.node a).capacity = credit ∧ (f.table.node a).outstanding.length ≤ credit.toNat

theorem Within.step {settings : Nat × UInt8 × Bool} {credit : UInt8} (hwithin : f.Within credit)
    (h : f.Reached settings) (hcredit : 1 ≤ settings.2.1) (hi : i.isPlain = true) :
    (f.step i).1.Within credit := by
  intro a
  obtain ⟨hcapacity, hlength⟩ := hwithin a
  have hsame := h.capacity_step hcredit (a := a) (Input.type_of_isPlain hi)
  have hbound := (h.spends_step hcredit (Input.frees_of_isPlain hi a)).bound
  rw [hcapacity] at hsame
  rw [hsame, Nat.max_eq_right hlength] at hbound
  exact ⟨hsame, hbound⟩

theorem Within.run {settings : Nat × UInt8 × Bool} {credit : UInt8} {is : List Input}
    (hwithin : f.Within credit) (h : f.Reached settings) (hcredit : 1 ≤ settings.2.1)
    (his : ∀ i ∈ is, i.isPlain = true) : (f.run is).1.Within credit := by
  induction is generalizing f with
  | nil => exact hwithin
  | cons i rest ih =>
    exact ih (hwithin.step h hcredit (his i (by simp))) (h.run [i])
      fun i hi => his i (List.mem_cons_of_mem _ hi)

theorem within_of_empty (h : ∀ a, f.table.nodes.find? a = none) :
    f.Within f.table.defaultCredit := by
  intro a
  simp [NodeTable.node, h]

end Flow

namespace Link

variable {config : Config} {sink : Sink} {l : Link}

theorem within_run {settings : Nat × UInt8 × Bool} {es : List Event} (h : l.flow.Reached settings)
    (hcredit : 1 ≤ settings.2.1) (hwithin : l.flow.Within settings.2.1)
    (hplain : ∀ i ∈ es.flatMap Event.inputs, i.isPlain = true) :
    (l.run es).flow.Within settings.2.1 := by
  induction es generalizing l with
  | nil => exact hwithin
  | cons e rest ih =>
    rw [List.flatMap_cons] at hplain
    refine ih (reached_step h e) ?_ fun i hi => hplain i (List.mem_append_right _ hi)
    by_cases hreset : e = .reset
    · subst hreset
      rw [← h.defaultCredit]
      exact Flow.within_of_empty fun _ => rfl
    · rw [(l.step_takes hreset).flow]
      exact hwithin.run h hcredit fun i hi => hplain i (List.mem_append_left _ hi)

/-- As for flow control, event by event; where a reset comes in between, the node is not full. -/
def StaysFull (a : Address) (l : Link) : List Event → Prop
  | [] => True
  | e :: rest => l.flow.StaysFull a e.inputs ∧ (l.step e).StaysFull a rest

instance decidableStaysFull (a : Address) :
    (l : Link) → (es : List Event) → Decidable (l.StaysFull a es)
  | _, [] => isTrue trivial
  | l, e :: rest =>
    have := decidableStaysFull a (l.step e) rest
    inferInstanceAs (Decidable (_ ∧ _))

def regulated (a : Address) (l : Link) : List Event → List Message
  | [] => []
  | e :: rest => l.flow.regulated a e.inputs ++ (l.step e).regulated a rest

theorem awaited_regulated {settings : Nat × UInt8 × Bool} {a : Address} {es : List Event}
    (h : l.flow.Reached settings) (hcredit : 1 ≤ settings.2.1) (hfull : l.StaysFull a es) :
    awaited (l.regulated a es) = [] := by
  induction es generalizing l with
  | nil => rfl
  | cons e rest ih =>
    rw [regulated, awaited_append, h.awaited_regulated hcredit hfull.1,
      ih (reached_step h e) hfull.2]
    rfl

/-- **Only the end of a stall overdraws credit.** Whatever happened to a link before, neither a
message to be sent nor one that comes in, unless it lets the node go, leaves a node with more
outstanding requests than it had and than it can take then, and there are more only by requests
that are sent. So where no stall ever ends and no buffer size is ever reported, no node has more to
answer than it is granted from the start. And however a node came to have too many, as long as those
it has not answered are as many as it can take it is sent no request, except on being let go. -/
theorem overdrawn_by_stall_end_only (config : Config) (sink : Sink) (es : List Event) :
    let l := (Link.new config sink).run es
    (∀ a b r, (l.flow.table.node a).Spends (sentTo a (l.ledger [.send b r]).appended)
      ((l.send b r).1.flow.table.node a)) ∧
    (∀ a m, Flow.closesPacket m = false ∨ m.address.isPrefixOf a = false →
      (l.flow.table.node a).Spends (sentTo a (l.ledger [.handle (.ok [m])]).appended)
        ((l.receive m).flow.table.node a)) ∧
    ((∀ i ∈ es.flatMap Event.inputs, i.isPlain = true) →
      ∀ a, (l.flow.table.node a).outstanding.length ≤
        (max config.flowControl.defaultCredit 1).toNat) ∧
    ∀ a later, l.StaysFull a later → awaited (l.regulated a later) = [] := by
  intro l
  have hreached : l.flow.Reached (Link.new config sink).flow.settings := reached_new config sink es
  have hcredit : 1 ≤ (Link.new config sink).flow.settings.2.1 := Node.one_le_max _
  refine ⟨fun a b r => ?_, fun a m hm => ?_, fun hplain a => ?_, fun a later hfull => ?_⟩
  · have hledger : (l.ledger [.send b r]).appended = (l.flow.step (.send b r)).2 := by
      simp [ledger, Traffic.inputs, Flow.run]
    have hflow : (l.send b r).1.flow = (l.flow.step (.send b r)).1 := (l.send_takes b r).flow
    rw [hledger, hflow]
    exact hreached.spends_step hcredit rfl
  · have hledger : (l.ledger [.handle (.ok [m])]).appended = (l.flow.step (.receive m)).2 := by
      simp [ledger, Traffic.inputs, Flow.run]
    have hflow : (l.receive m).flow = (l.flow.step (.receive m)).1 := (l.receive_takes m).flow
    rw [hledger, hflow]
    exact hreached.spends_step hcredit (Bool.and_eq_false_iff.2 hm)
  · have hempty : (Link.new config sink).flow.Reached (Link.new config sink).flow.settings :=
      ⟨_, [], fun _ => rfl, rfl, rfl⟩
    have hwithin := Flow.within_of_empty (f := (Link.new config sink).flow) fun _ => rfl
    exact (within_run hempty hcredit hwithin hplain a).2
  · exact awaited_regulated hreached hcredit hfull

/-- The child answers. -/
def childAnswers : Event := .traffic (.handle (.ok [{ address := child, type := ⟨0xB0⟩ }]))

/-- A node that can take one request has three to answer when its stall has ended, and is sent a
fourth after all three answers. It would have no more to answer if it told that it can take two. -/
theorem overage_holds_back :
    let past := [sendCommand, childStalls 1, sendCommand, sendCommand, childStalls 0]
    let later := [sendCommand, childAnswers, childAnswers]
    let l := narrow.run past
    let report : Message := { address := child, type := .pktCapacity, payload := [8] }
    (l.flow.table.node child).outstanding.length = 3 ∧
      awaited (l.regulated child later) = [] ∧
      (((l.run later).flow.table.node child).pending,
        ((l.run later).flow.table.node child).outstanding.length) = ([command], 1) ∧
      ((l.run (later ++ [childAnswers])).flow.table.node child).pending = [] ∧
      ((l.receive report).flow.table.node child).outstanding.length ≤ max 3 2 ∧
      ((narrow.run [sendCommand, sendCommand]).flow.table.node child).outstanding.length ≤ 1 := by
  intro past later l report
  obtain ⟨-, hreceive, -, hfull⟩ :=
    overdrawn_by_stall_end_only { flowControl := { defaultCredit := 1 } } {} past
  obtain ⟨-, -, hplain, -⟩ :=
    overdrawn_by_stall_end_only { flowControl := { defaultCredit := 1 } } {}
      [sendCommand, sendCommand]
  have hlength : (l.flow.table.node child).outstanding.length = 3 := by decide +kernel
  have hcapacity : ((l.receive report).flow.table.node child).capacity = 2 := by decide +kernel
  have hbound : ((l.receive report).flow.table.node child).outstanding.length ≤
      max (l.flow.table.node child).outstanding.length
        ((l.receive report).flow.table.node child).capacity.toNat :=
    (hreceive child report (.inl rfl)).bound
  rw [hlength, hcapacity] at hbound
  exact ⟨hlength, hfull child later (by decide +kernel), by decide +kernel, by decide +kernel,
    hbound, hplain (by decide) child⟩

end Link
end RailBus
