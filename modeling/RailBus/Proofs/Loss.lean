import RailBus.Proofs.Hearing
import RailBus.Proofs.Numbering

/-!
# Messages lost on the way

The numbers that a node gives its messages come round after 255 of them, and so does the number that
is expected next. So a loss shows unless a multiple of 255 messages is lost
(`number_eq_nextSeq_iff`), and what is said of the numbers that arrive is known from how many were
lost in between (`losses_told`).
-/

namespace RailBus

/-! ## What is said of a list of numbers -/

namespace Node

def judgeAll (last : Option UInt8) : List UInt8 → List SeqCheck
  | [] => []
  | seq :: rest => judge last seq :: judgeAll (remembered seq) rest

/-- What is remembered after a list of numbers. -/
def rememberedAll (last : Option UInt8) (seqs : List UInt8) : Option UInt8 :=
  seqs.foldl (fun _ seq => remembered seq) last

theorem judgeAll_append (last : Option UInt8) (seqs seqs' : List UInt8) :
    judgeAll last (seqs ++ seqs') =
      judgeAll last seqs ++ judgeAll (rememberedAll last seqs) seqs' := by
  induction seqs generalizing last with
  | nil => rfl
  | cons seq rest ih => exact congrArg (judge last seq :: ·) (ih (remembered seq))

/-- After number 0 nothing is remembered, whatever came before. -/
theorem judgeAll_restart (last : Option UInt8) (seqs seqs' : List UInt8) :
    judgeAll last (seqs ++ [noSequence] ++ seqs') =
      judgeAll last seqs ++ [.restarted] ++ judgeAll none seqs' := by
  have hnone : rememberedAll last (seqs ++ [noSequence]) = none := by
    rw [rememberedAll, List.foldl_append]
    rfl
  rw [judgeAll_append, judgeAll_append, hnone]
  rfl

end Node

/-! ## Calls of a table -/

namespace NodeTable

/-- A call of a table, short of a reset. -/
inductive Call
  | act (a : Address) (o : Operation)
  | stall (a : Address) (on : Bool)

/-- The number that a call tells. -/
def Call.heard : Call → List (Address × UInt8)
  | .act a (.observe seq) => [(a, seq)]
  | .act _ _ | .stall _ _ => []

def after (t : NodeTable) : Call → NodeTable
  | .act a o => (perform a o t).1
  | .stall a on => (t.setStall a on).1

/-- What the table says of each number that it is told, with the sender of the number. -/
def checks (t : NodeTable) : List Call → List (Address × SeqCheck)
  | [] => []
  | c :: rest => c.heard.map (fun (a, seq) => (a, (t.observe a seq).2)) ++ (t.after c).checks rest

variable {t : NodeTable} {a b : Address}

theorem lastReceived_setStall (t : NodeTable) (a : Address) (on : Bool) (b : Address) :
    ((t.setStall a on).1.node b).lastReceived = (t.node b).lastReceived := by
  have hstall : ∀ n : Node, (n.setStall on).1.lastReceived = n.lastReceived := by
    intro n
    cases on <;> rfl
  by_cases hb : a.isPrefixOf b = true
  · have hentry := t.find?_setStall_below on hb
    rw [AddressMap.find?_insert] at hentry
    split at hentry
    case isTrue hba => rw [node_of_find? hentry, hstall, hba]
    case isFalse =>
      -- a node that was not known stays so, and of such a node nothing is remembered
      cases hfind : t.nodes.find? b with
      | none => simp only [node, hentry, hfind, Option.map_none, Option.getD_none]
      | some n =>
        rw [hfind] at hentry
        rw [node_of_find? hentry, hstall, node_of_find? hfind]
  · rw [((within_setStall a on).outside t b hb).node]

theorem lastReceived_drain (n : Node) : n.drain.1.lastReceived = n.lastReceived := by
  rw [Node.drain_frame]

/-- Of what is done to the entry of one node, only to tell a number changes what is remembered. -/
theorem lastReceived_perform (t : NodeTable) (a : Address) {o : Operation}
    (ho : ∀ seq, o ≠ .observe seq) :
    ((perform a o t).1.node a).lastReceived = (t.node a).lastReceived := by
  cases o with
  | nextNumber =>
    rw [perform, nextNumber, node_update]
    rfl
  | reserve consumes =>
    rw [perform, reserve, node_update]
    obtain ⟨h, -⟩ | ⟨h, -⟩ := (t.node a).reserve_cases consumes <;> rw [h]
  | enqueue r =>
    rw [perform, enqueue, node_modify]
    rfl
  | await o =>
    rw [perform, await, node_modify]
    rfl
  | release =>
    rw [perform, release, node_update]
    exact lastReceived_drain _
  | observe seq => exact absurd rfl (ho seq)
  | learn bytes =>
    rw [perform, learn]
    split
    case isTrue =>
      rw [node_update]
      exact lastReceived_drain _
    case isFalse => rfl

theorem lastReceived_observe (t : NodeTable) (a : Address) (seq : UInt8) :
    ((t.observe a seq).1.node a).lastReceived = Node.remembered seq := by
  rw [observe, node_update, Node.observe_eq]

theorem check_observe (t : NodeTable) (a : Address) (seq : UInt8) :
    (t.observe a seq).2 = Node.judge (t.node a).lastReceived seq :=
  congrArg Prod.snd ((t.node a).observe_eq seq)

theorem Call.heard_cases (c : Call) :
    (∃ a seq, c = .act a (.observe seq)) ∨ c.heard = [] := by
  cases c with
  | stall b on => exact .inr rfl
  | act b o =>
    cases o with
    | observe seq => exact .inl ⟨b, seq, rfl⟩
    | _ => exact .inr rfl

/-- A table remembers of each node the last number that it was told. Nothing else that is done to
the node or to others changes what it remembers. -/
theorem lastReceived_after (t : NodeTable) (c : Call) (a : Address) :
    ((t.after c).node a).lastReceived =
      Node.rememberedAll (t.node a).lastReceived (valuesAt a c.heard) := by
  cases c with
  | stall b on => exact t.lastReceived_setStall b on a
  | act b o =>
    by_cases hb : b = a
    · subst hb
      obtain ⟨a, seq, hc⟩ | hsilent := (Call.act b o).heard_cases
      · cases hc
        rw [Call.heard, valuesAt_cons, if_pos rfl]
        exact t.lastReceived_observe b seq
      · have ho : ∀ seq, o ≠ .observe seq := by
          rintro seq rfl
          cases hsilent
        rw [hsilent]
        exact t.lastReceived_perform b ho
    · -- what is done to one node leaves the others as they are
      have hsame := (within_perform b o).outside t a (Ne.symm hb)
      have hheard : valuesAt a (Call.act b o).heard = [] := by
        cases o <;> simp [Call.heard, valuesAt_cons, hb]
      rw [hheard]
      exact congrArg Node.lastReceived hsame.node

theorem valuesAt_check (t : NodeTable) (c : Call) (a : Address) :
    valuesAt a (c.heard.map fun (b, seq) => (b, (t.observe b seq).2)) =
      Node.judgeAll (t.node a).lastReceived (valuesAt a c.heard) := by
  obtain ⟨b, seq, rfl⟩ | hsilent := c.heard_cases
  · simp only [Call.heard, List.map_cons, List.map_nil, valuesAt_cons, valuesAt_nil, check_observe]
    split
    case isTrue hb =>
      rw [hb]
      rfl
    case isFalse => rfl
  · rw [hsilent]
    rfl

/-- What is said of a node's numbers depends on these numbers alone, in whatever calls they are
told. -/
theorem valuesAt_checks (t : NodeTable) (cs : List Call) (a : Address) :
    valuesAt a (t.checks cs) =
      Node.judgeAll (t.node a).lastReceived (valuesAt a (cs.flatMap Call.heard)) := by
  induction cs generalizing t with
  | nil => rfl
  | cons c rest ih =>
    rw [checks, valuesAt_append, valuesAt_check, ih, lastReceived_after, List.flatMap_cons,
      valuesAt_append, Node.judgeAll_append]

/-! ## Numbers from a sender -/

/-- The number of message `i` to `a`, when `t` gives out one number after the other. -/
def number (t : NodeTable) (a : Address) : Nat → UInt8
  | 0 => (t.nextNumber a).2
  | i + 1 => (t.nextNumber a).1.number a i

theorem number_eq (t : NodeTable) (a : Address) (i : Nat) :
    t.number a i = nextSeq^[i + 1] (t.node a).lastSeq := by
  induction i generalizing t with
  | zero => rfl
  | succ i ih =>
    rw [number, ih, nextNumber, node_update]
    rfl

theorem toNat_number (t : NodeTable) (a : Address) (i : Nat) :
    (t.number a i).toNat = ((t.node a).lastSeq.toNat + i) % 255 + 1 := by
  rw [number_eq, toNat_iterate_nextSeq_from]

theorem number_ne_zero (t : NodeTable) (a : Address) (i : Nat) : t.number a i ≠ noSequence := by
  intro h
  have hnat := t.toNat_number a i
  rw [h] at hnat
  exact absurd hnat (by simp [noSequence])

/-- The number that is expected after message `i` is the number of message `j` if a multiple of 255
messages lies between them, and of no other. -/
theorem number_eq_nextSeq_iff {i j : Nat} (h : i < j) :
    t.number a j = nextSeq (t.number a i) ↔ 255 ∣ j - i - 1 := by
  rw [← UInt8.toNat_inj, toNat_nextSeq, toNat_number, toNat_number]
  omega

end NodeTable

/-! ## Which of a node's messages arrive -/

/-- The messages of a node up to its next restart. The node counts in `sender`, and the messages
with an index in `arrived` arrive. -/
structure Stretch where
  sender : NodeTable
  receiver : Address
  arrived : List Nat
  ascending : arrived.Pairwise (· < ·)

namespace Stretch

def number (s : Stretch) (i : Nat) : UInt8 := s.sender.number s.receiver i

/-- The numbers that arrive. -/
def numbers (s : Stretch) : List UInt8 := s.arrived.map s.number

/-- How many messages are lost between one that arrives and the next that does. -/
def lost (s : Stretch) : List Nat :=
  List.zipWith (fun i j => j - i - 1) s.arrived s.arrived.tail

/-- What is to be said of message `j` if message `i` is the one that arrived before it. -/
def check (s : Stretch) (i j : Nat) : SeqCheck :=
  if 255 ∣ j - i - 1 then .inOrder else .gap (nextSeq (s.number i)) (s.number j)

/-- What is to be said of the messages that arrive. -/
def checks (s : Stretch) : List SeqCheck :=
  match s.arrived with
  | [] => []
  | i :: rest => .first :: List.zipWith s.check (i :: rest) rest

variable {s : Stretch}

theorem number_ne_zero (s : Stretch) (i : Nat) : s.number i ≠ noSequence :=
  s.sender.number_ne_zero s.receiver i

theorem judge_number {i j : Nat} (h : i < j) :
    Node.judge (some (s.number i)) (s.number j) = s.check i j := by
  have hiff : s.number j = nextSeq (s.number i) ↔ 255 ∣ j - i - 1 :=
    NodeTable.number_eq_nextSeq_iff h
  simp only [Node.judge, if_neg (s.number_ne_zero j), check, hiff]

theorem remembered_number (s : Stretch) (i : Nat) :
    Node.remembered (s.number i) = some (s.number i) := if_neg (s.number_ne_zero i)

/-- After the first message that arrives each is compared with the one before it. -/
theorem judgeAll_number {i : Nat} {rest : List Nat} (h : (i :: rest).Pairwise (· < ·)) :
    Node.judgeAll (some (s.number i)) (rest.map s.number) =
      List.zipWith s.check (i :: rest) rest := by
  induction rest generalizing i with
  | nil => rfl
  | cons j rest ih =>
    obtain ⟨hi, hrest⟩ := List.pairwise_cons.1 h
    rw [List.map_cons, Node.judgeAll, judge_number (hi j (by simp)), remembered_number, ih hrest,
      List.zipWith_cons_cons]

theorem judgeAll_numbers (s : Stretch) : Node.judgeAll none s.numbers = s.checks := by
  have hascending := s.ascending
  unfold numbers checks
  cases hs : s.arrived with
  | nil => rfl
  | cons i rest =>
    rw [hs] at hascending
    rw [List.map_cons, Node.judgeAll, remembered_number, judgeAll_number hascending, Node.judge,
      if_neg (s.number_ne_zero i)]

/-- With each number 0 the node starts anew. -/
theorem judgeAll_intercalate (stretches : List Stretch) :
    Node.judgeAll none ([noSequence].intercalate (stretches.map numbers)) =
      [.restarted].intercalate (stretches.map checks) := by
  induction stretches with
  | nil => rfl
  | cons s rest ih =>
    cases rest with
    | nil => simpa [List.intercalate] using s.judgeAll_numbers
    | cons s' rest =>
      simp only [List.map_cons, List.intercalate_cons_cons] at ih ⊢
      rw [Node.judgeAll_restart, judgeAll_numbers, ih]

/-! ### Gaps -/

theorem isGap_check (s : Stretch) (i j : Nat) :
    (s.check i j).isGap = decide (¬ 255 ∣ j - i - 1) := by
  unfold check
  split
  case isTrue h => simp [h, SeqCheck.isGap]
  case isFalse h => simp [h, SeqCheck.isGap]

theorem countP_isGap_zipWith (s : Stretch) (is js : List Nat) :
    (List.zipWith s.check is js).countP SeqCheck.isGap =
      (List.zipWith (fun i j => j - i - 1) is js).countP (¬ 255 ∣ ·) := by
  induction is generalizing js with
  | nil => rfl
  | cons i is ih =>
    cases js with
    | nil => rfl
    | cons j js => simp only [List.zipWith_cons_cons, List.countP_cons, ih, isGap_check]

theorem countP_isGap_checks (s : Stretch) :
    s.checks.countP SeqCheck.isGap = s.lost.countP (¬ 255 ∣ ·) := by
  unfold checks lost
  cases s.arrived with
  | nil => rfl
  | cons i rest =>
    have hfirst : ¬ SeqCheck.first.isGap := by simp [SeqCheck.isGap]
    rw [List.countP_cons_of_neg hfirst]
    exact s.countP_isGap_zipWith (i :: rest) rest

theorem countP_isGap_intercalate (stretches : List Stretch) :
    ([.restarted].intercalate (stretches.map checks)).countP SeqCheck.isGap =
      (stretches.flatMap lost).countP (¬ 255 ∣ ·) := by
  induction stretches with
  | nil => rfl
  | cons s rest ih =>
    rw [List.flatMap_cons, List.countP_append, ← countP_isGap_checks]
    cases rest with
    | nil => simp [List.intercalate]
    | cons s' rest =>
      have hrestarted : [SeqCheck.restarted].countP SeqCheck.isGap = 0 := rfl
      simp only [List.map_cons, List.intercalate_cons_cons] at ih ⊢
      rw [List.countP_append, List.countP_append, hrestarted, ih, Nat.add_zero]

end Stretch

namespace NodeTable

/-- **A loss shows unless the numbers come round.** Let a node number its messages as a table does,
from any number on, and anew after each number 0, and let any of these messages arrive, in order.
Whatever else is done to a table in between, short of a reset, it says of the first message, and of
the first after number 0, that it is the first. Of each later one it says that it is in order if a
multiple of 255 messages was lost since the one before, and else that its own number came instead of
the one that follows. So there are as many gaps as losses if no more than 254 messages are lost at
once, and none if nothing is lost. -/
theorem losses_told {t : NodeTable} {a : Address} {cs : List Call} {stretches : List Stretch}
    (hnew : (t.node a).lastReceived = none)
    (harrive : valuesAt a (cs.flatMap Call.heard) =
      [noSequence].intercalate (stretches.map Stretch.numbers)) :
    valuesAt a (t.checks cs) = [.restarted].intercalate (stretches.map Stretch.checks) ∧
      ((∀ k ∈ stretches.flatMap Stretch.lost, k ≤ 254) →
        (valuesAt a (t.checks cs)).countP SeqCheck.isGap =
          (stretches.flatMap Stretch.lost).countP (0 < ·)) ∧
      ((∀ k ∈ stretches.flatMap Stretch.lost, k = 0) →
        ∀ check ∈ valuesAt a (t.checks cs), check.isGap = false) := by
  have hchecks : valuesAt a (t.checks cs) =
      [.restarted].intercalate (stretches.map Stretch.checks) := by
    rw [valuesAt_checks, hnew, harrive, Stretch.judgeAll_intercalate]
  have hgaps : (valuesAt a (t.checks cs)).countP SeqCheck.isGap =
      (stretches.flatMap Stretch.lost).countP (¬ 255 ∣ ·) := by
    rw [hchecks, Stretch.countP_isGap_intercalate]
  refine ⟨hchecks, ?_, ?_⟩
  · intro hfew
    rw [hgaps]
    refine List.countP_congr fun k hk => ?_
    have hle := hfew k hk
    simp only [decide_eq_true_eq]
    omega
  · intro hlossless
    have hnone : (valuesAt a (t.checks cs)).countP SeqCheck.isGap = 0 := by
      rw [hgaps, List.countP_eq_zero]
      intro k hk
      simp [hlossless k hk]
    exact fun check hcheck => Bool.eq_false_iff.2 (List.countP_eq_zero.1 hnone check hcheck)

/-- The child counts on from 253, and its fourth message is lost. Then it starts anew, and nothing
comes between its first message and the one with index 255. -/
def twoLosses : List Stretch :=
  [{ sender := (NodeTable.new 4 true).put Link.child { capacity := 4, lastSeq := 253 }
     receiver := Link.child
     arrived := [0, 1, 2, 4]
     ascending := by decide },
   { sender := NodeTable.new 4 true
     receiver := Link.child
     arrived := [0, 255]
     ascending := by decide }]

/-- Between two messages the child is stopped, is given a number, or another node is heard. -/
def callsBetween : List Call :=
  [.act Link.child (.observe 254), .stall Link.child true, .act Link.child (.observe 255),
    .act Link.child .nextNumber, .act Link.child (.observe 1), .act Link.grandchild (.observe 7),
    .act Link.child (.observe 3), .act Link.child (.observe 0), .stall Link.child false,
    .act Link.child (.observe 1), .act Link.child (.observe 1)]

theorem both_losses_told :
    ((NodeTable.new 4 true).node Link.child).lastReceived = none ∧
      valuesAt Link.child (callsBetween.flatMap Call.heard) =
        [noSequence].intercalate (twoLosses.map Stretch.numbers) ∧
      valuesAt Link.child ((NodeTable.new 4 true).checks callsBetween) =
        [.first, .inOrder, .inOrder, .gap 2 3, .restarted, .first, .gap 2 1] ∧
      (valuesAt Link.child ((NodeTable.new 4 true).checks callsBetween)).countP SeqCheck.isGap =
        (twoLosses.flatMap Stretch.lost).countP (0 < ·) := by
  have hnew : ((NodeTable.new 4 true).node Link.child).lastReceived = none := by decide +kernel
  have harrive : valuesAt Link.child (callsBetween.flatMap Call.heard) =
      [noSequence].intercalate (twoLosses.map Stretch.numbers) := by decide +kernel
  obtain ⟨hchecks, hgaps, -⟩ := losses_told hnew harrive
  exact ⟨hnew, harrive, hchecks.trans (by decide +kernel), hgaps (by decide +kernel)⟩

/-- With 255 messages lost the numbers come round, and nothing shows. -/
example : (twoLosses.map fun s => s.check 4 260) = [.inOrder, .inOrder] := by decide +kernel

end NodeTable
end RailBus
