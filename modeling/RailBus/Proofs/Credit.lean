import RailBus.Proofs.Traffic

/-!
# Credit

Credit is taken when a request is let go and given back when an answer comes, while the list of
outstanding requests is kept elsewhere. The two never drift apart (`Balanced`), and a request that
waits although its node is not stalled waits for an answer that is still to come (`Blocked`).
-/

namespace RailBus
namespace Node

/-- Credit is in use for the outstanding requests and no others, and there is some to use. -/
structure Balanced (n : Node) : Prop where
  inUse : n.inUse = n.outstanding.length
  capacity : 1 ≤ n.capacity

/-- The first message that waits has a reason to: a stall, or a lack of credit. -/
def Blocked (n : Node) : Prop :=
  ∀ r rest, n.pending = r :: rest → n.stalled = true ∨ r.consumesCredit = true ∧ n.credit = 0

/-- Counting the credit in use no further than a byte goes makes no difference. -/
theorem credit_eq_sub_min (n : Node) : n.credit = n.capacity.toNat - min n.inUse 255 := by
  have h := n.capacity.toNat_lt
  rw [credit]
  omega

/-- The credit that is granted is at least 1 wherever it is set. -/
theorem one_le_max (credit : UInt8) : 1 ≤ max credit 1 := by
  show 1 ≤ if credit ≤ 1 then 1 else credit
  split
  case isTrue => exact UInt8.le_refl 1
  case isFalse h => exact UInt8.le_of_lt (UInt8.not_le.1 h)

/-! ## Draining -/

theorem charge_cons (r : Request) (rs : List Request) :
    charge (r :: rs) = charge rs + r.consumesCredit.toNat := by
  cases h : r.consumesCredit <;> simp [charge, h]

/-- What is held back starts with a request that needs credit, and the credit is used up. -/
theorem admissible_held {credit : Nat} {rs : List Request} {r : Request} {rest : List Request}
    (h : (admissible credit rs).2 = r :: rest) :
    r.consumesCredit = true ∧ charge (admissible credit rs).1 = credit := by
  induction rs generalizing credit with
  | nil => simp [admissible] at h
  | cons x xs ih =>
    cases hx : x.consumesCredit with
    | false =>
      simp only [admissible, hx, Bool.false_eq_true, if_false] at h ⊢
      obtain ⟨hr, hcharge⟩ := ih h
      exact ⟨hr, by simp [charge_cons, hx, hcharge]⟩
    | true =>
      cases credit with
      | zero =>
        simp only [admissible, hx, if_true] at h ⊢
        injection h with h1 h2
        exact ⟨h1 ▸ hx, rfl⟩
      | succ credit =>
        simp only [admissible, hx, if_true] at h ⊢
        obtain ⟨hr, hcharge⟩ := ih h
        exact ⟨hr, by simp [charge_cons, hx, hcharge]⟩

theorem charge_admissible_le (credit : Nat) (rs : List Request) :
    charge (admissible credit rs).1 ≤ credit := by
  induction rs generalizing credit with
  | nil => exact Nat.zero_le _
  | cons r rest ih =>
    cases hr : r.consumesCredit with
    | false =>
      simp only [admissible, hr, Bool.false_eq_true, if_false, charge_cons, Bool.toNat_false]
      exact ih credit
    | true =>
      cases credit with
      | zero => simp [admissible, hr, charge]
      | succ credit =>
        simp only [admissible, hr, if_true, charge_cons, Bool.toNat_true]
        exact Nat.succ_le_succ (ih credit)

theorem charge_drain_le (n : Node) : charge n.drain.2 ≤ n.credit := by
  cases hs : n.stalled with
  | true => simp [drain, hs, charge]
  | false =>
    simp only [drain, hs, Bool.false_eq_true, if_false]
    exact charge_admissible_le _ _

theorem drain_eq (n : Node) :
    n.drain.1 = { n with pending := n.drain.1.pending, inUse := n.inUse + charge n.drain.2 } := by
  by_cases hs : n.stalled = true
  · have h : n.drain = (n, []) := by simp [drain, hs]
    rw [h]
    rfl
  · simp [drain, hs]

/-! ## What an occurrence tells -/

/-- What is remembered of the number of a message. -/
def remembered (seq : UInt8) : Option UInt8 := if seq = noSequence then none else some seq

/-- The entry of a node with what an occurrence tells put down in it. -/
def note (n : Node) : Occurrence → Node
  | .heard seq => { n with lastReceived := remembered seq }
  | .offered _ | .pushed _ => n
  | .answered => { n with outstanding := n.outstanding.tail }
  | .reported bytes => { n with capacity := max (bytes / bytesPerMessage) 1 }
  | .stalled on => { n with stalled := on }

theorem drain_frame (n : Node) :
    n.drain.1 = { n with pending := n.drain.1.pending, inUse := n.drain.1.inUse } := by
  unfold drain
  split <;> rfl

/-- Besides putting down what it is told, flow control changes what waits and how much credit is in
use, and nothing else. -/
theorem regulate_eq_note (n : Node) (o : Occurrence) :
    (n.regulate o).1 =
      { n.note o with
          pending := (n.regulate o).1.pending
          inUse := (n.regulate o).1.inUse } := by
  cases o with
  | heard seq =>
    simp only [regulate, observe, note, remembered]
    split <;> rfl
  | offered r =>
    obtain ⟨hr, -⟩ | ⟨hr, -⟩ := n.reserve_cases r.consumesCredit <;>
      simp [regulate, hr, enqueue, note]
  | pushed r => rfl
  | answered => exact drain_frame _
  | reported bytes => exact drain_frame _
  | stalled on => cases on <;> rfl

/-- Flow control gives no numbers, and only a stall message changes the stall flag. -/
theorem regulate_frame (n : Node) (o : Occurrence) :
    (n.regulate o).1.lastSeq = n.lastSeq ∧ (n.regulate o).1.stalled = o.flag n.stalled := by
  rw [regulate_eq_note]
  cases o <;> exact ⟨rfl, rfl⟩

/-! ## Why a request waits -/

theorem drain_blocked (n : Node) : n.drain.1.Blocked := by
  intro r rest h
  cases hs : n.stalled with
  | true => left; simp [drain, hs]
  | false =>
    simp only [drain, hs, Bool.false_eq_true, if_false] at h ⊢
    obtain ⟨hr, hcharge⟩ := admissible_held h
    refine .inr ⟨hr, ?_⟩
    simp only [credit] at hcharge ⊢
    omega

variable {limit : Nat} {a : Address} {n : Node} {o : Occurrence}

/-! ## One occurrence -/

/-- Flow control takes credit for what it lets go, beyond what is outstanding. -/
theorem inUse_regulate (h : n.inUse = n.outstanding.length) (ho : o.Permitted limit a) :
    (n.regulate o).1.inUse = (n.regulate o).1.outstanding.length + charge (n.regulate o).2 := by
  cases o with
  | heard seq =>
    simp only [regulate, observe]
    split <;> exact h
  | offered r =>
    obtain ⟨hr, -⟩ | ⟨hr, -⟩ := n.reserve_cases r.consumesCredit
    · have hcharge : charge [r] = r.consumesCredit.toNat := by
        rw [charge_cons]
        exact Nat.zero_add _
      simp [regulate, hr, h, hcharge]
    · simp [regulate, hr, h, enqueue, charge]
  | pushed r =>
    have hr : charge [r] = 0 := by simp [charge, ho.2]
    simp [regulate, h, hr]
  | answered =>
    simp only [regulate, release]
    rw [drain_eq]
    simp [h]
  | reported bytes =>
    simp only [regulate, learn]
    rw [drain_eq]
    simp [h]
  | stalled on => cases on <;> simp [regulate, setStall, h, charge]

theorem capacity_regulate (h : 1 ≤ n.capacity) : 1 ≤ (n.regulate o).1.capacity := by
  rw [regulate_eq_note]
  cases o with
  | reported bytes => exact one_le_max _
  | _ => exact h

theorem balanced_meet (hfit : n.PendingFit limit a) (ho : o.Permitted limit a) (h : n.Balanced) :
    (n.meet a o).1.Balanced := by
  rw [meet_eq hfit ho]
  constructor
  · have hcharge := inUse_regulate h.inUse ho
    rw [List.length_append, length_awaited_numbered]
    exact hcharge
  · exact capacity_regulate h.capacity

theorem blocked_regulate (h : n.Blocked) : (n.regulate o).1.Blocked := by
  cases o with
  | heard seq =>
    simp only [regulate, observe]
    split <;> exact h
  | offered r =>
    obtain ⟨hr, -, hempty⟩ | ⟨hr, hwhy⟩ := n.reserve_cases r.consumesCredit
    · intro r' rest hp
      simp [regulate, hr, hempty] at hp
    · intro r' rest hp
      simp only [regulate, hr, enqueue] at hp ⊢
      cases hq : n.pending with
      | nil =>
        -- the message itself is the first that waits
        simp only [hq, List.nil_append, List.cons.injEq] at hp
        obtain ⟨rfl, -⟩ := hp
        rcases hwhy with hs | hne | hc
        · exact .inl hs
        · exact absurd hq hne
        · exact .inr hc
      | cons first more =>
        simp only [hq, List.cons_append, List.cons.injEq] at hp
        obtain ⟨rfl, -⟩ := hp
        exact h first more hq
  | pushed r => exact h
  | answered => exact drain_blocked _
  | reported bytes => exact drain_blocked _
  | stalled on =>
    cases on with
    | true => intro r rest _; exact .inl rfl
    | false => intro r rest hp; simp [regulate, setStall] at hp

theorem blocked_meet (hfit : n.PendingFit limit a) (ho : o.Permitted limit a) (h : n.Blocked) :
    (n.meet a o).1.Blocked := by
  rw [meet_eq hfit ho]
  exact blocked_regulate h

/-! ## All that happens to a node -/

/-- From its first entry on a node is balanced, and what waits is blocked and fits. -/
theorem sound_of_history {credit : UInt8} {stalled : Bool} {os : List Occurrence}
    (hcredit : 1 ≤ credit) (ho : ∀ o ∈ os, o.Permitted limit a) :
    (((fresh credit stalled).meetAll a os).1.Balanced ∧
        ((fresh credit stalled).meetAll a os).1.Blocked) ∧
      ((fresh credit stalled).meetAll a os).1.PendingFit limit a := by
  refine meetAll_induction (P := fun n => n.Balanced ∧ n.Blocked) ?_ ho
    (pendingFit_fresh limit a credit stalled) ⟨⟨rfl, hcredit⟩, ?_⟩
  · intro n o hmem hfit h
    exact ⟨balanced_meet hfit (ho o hmem) h.1, blocked_meet hfit (ho o hmem) h.2⟩
  · intro r rest h
    cases h

/-! ## Answers let go what waits -/

theorem drain_front {r : Request} {rest : List Request} (hs : n.stalled = false)
    (hp : n.pending = r :: rest) (hcredit : n.credit ≠ 0) : ∃ rs, n.drain.2 = r :: rs := by
  obtain ⟨credit, hcredit⟩ := Nat.exists_eq_succ_of_ne_zero hcredit
  cases hr : r.consumesCredit <;> simp [drain, hs, hp, hcredit, admissible, hr]

theorem drain_none {r : Request} {rest : List Request} (hp : n.pending = r :: rest)
    (hr : r.consumesCredit = true) (hcredit : n.credit = 0) : n.drain = (n, []) := by
  by_cases hs : n.stalled = true
  · simp [drain, hs]
  · have hdrain : n.drain = ({ n with pending := r :: rest }, []) := by
      simp [drain, hs, hp, hcredit, admissible, hr, charge]
    rw [hdrain, ← hp]

/-- Nothing but a lack of credit holds back `r`, the first message that waits. -/
structure Starved (n : Node) (r : Request) : Prop where
  balanced : n.Balanced
  running : n.stalled = false
  front : ∃ rest, n.pending = r :: rest
  consumes : r.consumesCredit = true
  used : n.capacity.toNat ≤ n.outstanding.length

theorem meet_heard (n : Node) (a : Address) (seq : UInt8) :
    ∃ last, n.meet a (.heard seq) = ({ n with lastReceived := last }, []) := by
  simp only [meet, regulate, observe, transmitAll]
  split <;> exact ⟨_, rfl⟩

/-- The oldest request is settled, and nothing is let go yet. -/
def settled (n : Node) : Node :=
  { n with outstanding := n.outstanding.tail, inUse := n.inUse - 1 }

theorem regulate_answered (n : Node) : n.regulate .answered = n.settled.drain := rfl

/-- An answer lets the message go, or one request fewer is in its way. -/
theorem Starved.answered {r : Request} (h : n.Starved r) (hfit : n.PendingFit limit a) :
    (∃ rs, (n.meet a .answered).2.map Message.request = r :: rs) ∨
      (n.meet a .answered).1.Starved r ∧ (n.meet a .answered).2 = [] ∧
        (n.meet a .answered).1.capacity = n.capacity ∧
        (n.meet a .answered).1.outstanding.length + 1 = n.outstanding.length := by
  obtain ⟨rest, hp⟩ := h.front
  have hpos : 1 ≤ n.capacity.toNat := UInt8.le_iff_toNat_le.1 h.balanced.capacity
  have hinUse := h.balanced.inUse
  have hused := h.used
  have hcredit : n.settled.credit = n.capacity.toNat - (n.outstanding.length - 1) := by
    simp only [credit, settled, hinUse]
  by_cases hlast : n.outstanding.length = n.capacity.toNat
  · left
    have hsome : n.settled.credit ≠ 0 := by omega
    obtain ⟨rs, hrs⟩ := drain_front (n := n.settled) h.running hp hsome
    refine ⟨rs, ?_⟩
    rw [meet_eq (o := .answered) hfit trivial, numbered_request, regulate_answered]
    exact hrs
  · right
    have hnone : n.settled.credit = 0 := by omega
    have hdrain : n.settled.drain = (n.settled, []) := drain_none hp h.consumes hnone
    have hmeet : n.meet a .answered = (n.settled, []) := by
      rw [meet, regulate_answered, hdrain]
      rfl
    have hlength : n.settled.outstanding.length + 1 = n.outstanding.length := by
      rw [settled, List.length_tail]
      omega
    rw [hmeet]
    refine ⟨⟨⟨?_, h.balanced.capacity⟩, h.running, h.front, h.consumes, ?_⟩, rfl, rfl, hlength⟩
    · show n.inUse - 1 = n.settled.outstanding.length
      omega
    · show n.capacity.toNat ≤ n.settled.outstanding.length
      omega

/-- As many answers as there are outstanding requests beyond the capacity, and one more, let the
message go. -/
theorem Starved.answers {r : Request} {seqs : List UInt8} (h : n.Starved r)
    (hfit : n.PendingFit limit a)
    (hcount : seqs.length + n.capacity.toNat = n.outstanding.length + 1) :
    ∃ rs, (n.meetAll a (seqs.flatMap fun seq => [.heard seq, .answered])).2.map Message.request =
      r :: rs := by
  induction seqs generalizing n with
  | nil =>
    have hused := h.used
    simp only [List.length_nil] at hcount
    omega
  | cons seq more ih =>
    obtain ⟨last, hheard⟩ := n.meet_heard a seq
    have hstarved : Starved { n with lastReceived := last } r :=
      ⟨⟨h.balanced.inUse, h.balanced.capacity⟩, h.running, h.front, h.consumes, h.used⟩
    simp only [List.flatMap_cons, List.cons_append, List.nil_append, meetAll_cons, hheard,
      List.map_append]
    rcases hstarved.answered (a := a) hfit with ⟨rs, hrs⟩ | ⟨hstarved', hnone, hcapacity, hlength⟩
    · rw [hrs]
      exact ⟨_, rfl⟩
    · rw [hnone]
      simp only [List.map_nil, List.nil_append]
      refine ih hstarved' (pendingFit_meet (o := .answered) hfit trivial) ?_
      simp only [List.length_cons] at hcount
      simp only at hlength
      rw [hcapacity]
      show more.length + n.capacity.toNat = _ + 1
      omega

end Node

namespace Flow

/-- An answer that reports no buffer size is an answer and nothing else. -/
theorem occurrences_answer (f : Flow) {m : Message} (hanswer : settles m = true)
    (hreport : m.type ≠ .pktCapacity) :
    f.occurrences m.address (.receive m) = [.heard m.seq, .answered] := by
  have hspontaneous : m.type.isSpontaneous = false := by
    simp only [settles, Bool.and_eq_true, Bool.not_eq_true'] at hanswer
    exact hanswer.2
  simp only [MessageType.isSpontaneous, List.mem_cons, List.not_mem_nil, or_false,
    decide_eq_false_iff_not, not_or] at hspontaneous
  obtain ⟨hstall, hnew, hlost⟩ := hspontaneous
  simp [occurrences, reactions, answers, hstall, hreport, hnew, hlost, hanswer]

theorem run_answers {f : Flow} {a : Address} {n : Node} {ms : List Message}
    (h : f.table.nodes.find? a = some n)
    (hm : ∀ m ∈ ms, m.address = a ∧ settles m = true ∧ m.type ≠ .pktCapacity) :
    sentTo a (f.run (ms.map .receive)).2.appended =
      (n.meetAll a ((ms.map Message.seq).flatMap fun seq => [.heard seq, .answered])).2 := by
  induction ms generalizing f n with
  | nil => rfl
  | cons m rest ih =>
    obtain ⟨rfl, hanswer, hreport⟩ := hm m (by simp)
    have hoccurrences := f.occurrences_answer hanswer hreport
    obtain ⟨hentry, hsent⟩ := f.step_actsAs (.receive m) m.address
    rw [NodeTable.node_of_find? h, hoccurrences] at hentry hsent
    rw [if_neg (by simp)] at hentry
    have hrest := ih hentry fun m' h' => hm m' (List.mem_cons_of_mem _ h')
    rw [List.map_cons, run_cons, sentTo_append, hsent, hrest, List.map_cons, List.flatMap_cons,
      Node.meetAll_append]

end Flow

namespace Link

/-- A link that grants one credit, a node, and a command that the node answers. -/
def narrow : Link := Link.new { flowControl := { defaultCredit := 1 } }

def child : Address := ⟨[1], by decide, by simp⟩

def command : Request := { type := ⟨0x30⟩ }

def sendCommand : Event := .traffic (.send child command)

/-- The child stops itself, or lets go. -/
def childStalls (on : UInt8) : Event :=
  .traffic (.handle (.ok [{ address := child, type := .stall, payload := [on] }]))

variable {config : Config} {sink : Sink} {es : List Event} {a : Address} {n : Node}

theorem sound_of_run
    (h : ((Link.new config sink).run es).flow.table.nodes.find? a = some n) :
    (n.Balanced ∧ n.Blocked) ∧ n.PendingFit config.link.maxPacketSize a := by
  obtain ⟨stalled, os, rfl, ho⟩ := node_history h
  exact Node.sound_of_history (Node.one_le_max _) ho

/-- **Credit in use and outstanding requests never drift apart.** Whatever happens to a link, a node
it knows has credit in use for exactly its outstanding requests, grants at least one, and has as
much credit left as its capacity exceeds the number of these, if it does. -/
theorem inUse_eq_length_outstanding
    (h : ((Link.new config sink).run es).flow.table.nodes.find? a = some n) :
    n.inUse = n.outstanding.length ∧ 1 ≤ n.capacity ∧
      n.credit = n.capacity.toNat - n.outstanding.length ∧
      n.credit = n.capacity.toNat - min n.outstanding.length 255 ∧
      ((Link.new config sink).run es).flow.table.credit? a =
        some (n.capacity.toNat - n.outstanding.length) ∧
      (((Link.new config sink).run es).flow.table.state? a).map (·.available) =
        some (n.capacity.toNat - n.outstanding.length) := by
  obtain ⟨hinUse, hcapacity⟩ := (sound_of_run h).1.1
  have hcredit : n.credit = n.capacity.toNat - n.outstanding.length := by
    rw [Node.credit, hinUse]
  have hclamped := n.credit_eq_sub_min
  rw [hinUse] at hclamped
  refine ⟨hinUse, hcapacity, hcredit, hclamped, ?_, ?_⟩
  · simp [NodeTable.credit?, h, hcredit]
  · simp [NodeTable.state?, h, hcredit]

theorem inUse_past_capacity :
    ∃ n, (narrow.run [sendCommand, childStalls 1, sendCommand, sendCommand,
        childStalls 0]).flow.table.nodes.find? child = some n ∧
      n.capacity.toNat < n.outstanding.length ∧ n.inUse = n.outstanding.length ∧ n.credit = 0 := by
  have h : (narrow.run [sendCommand, childStalls 1, sendCommand, sendCommand,
      childStalls 0]).flow.table.nodes.find? child =
        some
          { lastSeq := 3
            capacity := 1
            inUse := 3
            outstanding := [⟨1, ⟨0x30⟩, none⟩, ⟨2, ⟨0x30⟩, none⟩, ⟨3, ⟨0x30⟩, none⟩] } := by
    decide
  obtain ⟨hinUse, -, hcredit, -, -, -⟩ := inUse_eq_length_outstanding h
  exact ⟨_, h, by decide, hinUse, hcredit⟩

/-- **No message is stuck.** Where messages wait for a node, it is stalled, or the first of them
needs credit and as many requests as the node can take, at least one, are unanswered. Enough
answers to these, and they are no more than the requests, let the message go. -/
theorem stalled_or_answerable {r : Request} {rest : List Request}
    (h : ((Link.new config sink).run es).flow.table.nodes.find? a = some n)
    (hp : n.pending = r :: rest) :
    n.stalled = true ∨
      r.consumesCredit = true ∧ n.credit = 0 ∧ 1 ≤ n.capacity.toNat ∧
        n.capacity.toNat ≤ n.outstanding.length ∧
        ∀ ms : List Message,
          (∀ m ∈ ms, m.address = a ∧ Flow.settles m = true ∧ m.type ≠ .pktCapacity) →
          ms.length + n.capacity.toNat = n.outstanding.length + 1 →
          ∃ rs, (sentTo a (((Link.new config sink).run es).ledger
            [.handle (.ok ms)]).appended).map Message.request = r :: rs := by
  obtain ⟨⟨hbalanced, hblocked⟩, hfit⟩ := sound_of_run h
  cases hs : n.stalled with
  | true => exact .inl rfl
  | false =>
    right
    rcases hblocked r rest hp with hstalled | ⟨hr, hcredit⟩
    · rw [hs] at hstalled
      cases hstalled
    · have hpos : 1 ≤ n.capacity.toNat := UInt8.le_iff_toNat_le.1 hbalanced.capacity
      have hused : n.capacity.toNat ≤ n.outstanding.length := by
        have hinUse := hbalanced.inUse
        rw [Node.credit] at hcredit
        omega
      refine ⟨hr, hcredit, hpos, hused, fun ms hm hcount => ?_⟩
      have hstarved : n.Starved r := ⟨hbalanced, hs, ⟨rest, hp⟩, hr, hused⟩
      have hledger : ((Link.new config sink).run es).ledger [.handle (.ok ms)] =
          (((Link.new config sink).run es).flow.run (ms.map .receive)).2 := by
        simp [ledger, Traffic.inputs]
      rw [hledger, Flow.run_answers h hm]
      exact hstarved.answers hfit (by rw [List.length_map]; exact hcount)

theorem command_waits_for_answer :
    ∃ n, (narrow.run [sendCommand, sendCommand]).flow.table.nodes.find? child = some n ∧
      n.stalled = false ∧ n.pending = [command] ∧ n.capacity.toNat ≤ n.outstanding.length ∧
      ∃ rs, (sentTo child ((narrow.run [sendCommand, sendCommand]).ledger
        [.handle (.ok [{ address := child, type := ⟨0xB0⟩ }])]).appended).map Message.request =
          command :: rs := by
  have h : (narrow.run [sendCommand, sendCommand]).flow.table.nodes.find? child =
      some
        { lastSeq := 1
          capacity := 1
          inUse := 1
          pending := [command]
          outstanding := [⟨1, ⟨0x30⟩, none⟩] } := by
    decide
  obtain ⟨-, -, -, hused, hanswer⟩ := (stalled_or_answerable h rfl).resolve_left (by decide)
  refine ⟨_, h, rfl, rfl, hused, hanswer _ ?_ rfl⟩
  intro m hm
  rw [List.mem_singleton.1 hm]
  decide

end Link
end RailBus
