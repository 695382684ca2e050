import RailBus.Proofs.Credit
import RailBus.Proofs.Order

/-!
# Numbering

A number is given to a message when it is put into a packet, not when it is accepted. So whichever
way messages leave for a node, and whatever is sent to others in between, the node sees the numbers
1 to 255 and round again without a gap (`numbered_without_gap`).
-/

namespace RailBus

/-! ## The numbers in turn -/

theorem toNat_nextSeq (seq : UInt8) : (nextSeq seq).toNat = seq.toNat % 255 + 1 := by
  have hlt := seq.toNat_lt
  unfold nextSeq
  split
  case isTrue h => rw [h]; rfl
  case isFalse h =>
    have hne : seq.toNat ≠ 255 := fun heq => h (UInt8.toNat_inj.1 heq)
    rw [UInt8.toNat_add]
    have hone : (1 : UInt8).toNat = 1 := rfl
    omega

theorem toNat_iterate_nextSeq_from (seq : UInt8) (i : Nat) :
    (nextSeq^[i + 1] seq).toNat = (seq.toNat + i) % 255 + 1 := by
  induction i with
  | zero => exact toNat_nextSeq seq
  | succ i ih =>
    rw [Function.iterate_succ_apply', toNat_nextSeq, ih]
    omega

/-- Counted from 0, number `i` of those after 0 is `i % 255 + 1`. -/
theorem toNat_iterate_nextSeq (i : Nat) : (nextSeq^[i + 1] 0).toNat = i % 255 + 1 := by
  have hfrom := toNat_iterate_nextSeq_from 0 i
  rwa [UInt8.toNat_zero, Nat.zero_add] at hfrom

/-- After 255 numbers the first comes again. -/
example : nextSeq^[256] 0 = nextSeq 0 := by cbv

/-- The `k` numbers after `seq`. -/
def nextSeqs (seq : UInt8) (k : Nat) : List UInt8 :=
  (List.range k).map fun i => nextSeq^[i + 1] seq

theorem nextSeqs_add (seq : UInt8) (k k' : Nat) :
    nextSeqs seq (k + k') = nextSeqs seq k ++ nextSeqs (nextSeq^[k] seq) k' := by
  have hshift : ∀ i, nextSeq^[k + i + 1] seq = nextSeq^[i + 1] (nextSeq^[k] seq) := by
    intro i
    have hsum : k + i + 1 = i + 1 + k := by omega
    rw [← Function.iterate_add_apply, hsum]
  simp only [nextSeqs, List.range_add, List.map_append, List.map_map]
  congr 1
  exact List.map_congr_left fun i _ => hshift i

/-! ## The numbers a node is sent -/

namespace Node

variable {limit : Nat} {a : Address} {n : Node} {o : Occurrence}

/-- The messages `ms` are numbered on from `n`, which becomes `n'`. -/
structure CountsOn (n : Node) (ms : List Message) (n' : Node) : Prop where
  seqs : ms.map Message.seq = nextSeqs n.lastSeq ms.length
  last : n'.lastSeq = nextSeq^[ms.length] n.lastSeq

theorem CountsOn.trans {n' n'' : Node} {ms ms' : List Message} (h : n.CountsOn ms n')
    (h' : n'.CountsOn ms' n'') : n.CountsOn (ms ++ ms') n'' := by
  constructor
  · rw [List.map_append, List.length_append, nextSeqs_add, h.seqs, h'.seqs, h.last]
  · rw [h'.last, h.last, ← Function.iterate_add_apply, List.length_append, Nat.add_comm]

theorem length_numbered (a : Address) (seq : UInt8) (rs : List Request) :
    (numbered a seq rs).length = rs.length := by
  rw [← List.length_map (f := Message.request), numbered_request]

theorem seqs_numbered (a : Address) (seq : UInt8) (rs : List Request) :
    (numbered a seq rs).map Message.seq = nextSeqs seq rs.length := by
  induction rs generalizing seq with
  | nil => rfl
  | cons r rest ih =>
    have hfirst : nextSeqs seq 1 = [nextSeq seq] := rfl
    rw [List.length_cons, Nat.add_comm, nextSeqs_add, hfirst, numbered, List.map_cons, ih]
    rfl

theorem countsOn_meet (hn : n.PendingFit limit a) (ho : o.Permitted limit a) :
    n.CountsOn (n.meet a o).2 (n.meet a o).1 := by
  have hlast := (n.regulate_frame o).1
  rw [meet_eq hn ho]
  constructor
  · rw [seqs_numbered, length_numbered, hlast]
  · simp only [length_numbered, hlast]

theorem countsOn_meetAll {os : List Occurrence} (hn : n.PendingFit limit a)
    (ho : ∀ o ∈ os, o.Permitted limit a) : n.CountsOn (n.meetAll a os).2 (n.meetAll a os).1 := by
  induction os generalizing n with
  | nil => exact ⟨rfl, rfl⟩
  | cons o rest ih =>
    have hfirst := countsOn_meet hn (ho o (by simp))
    have hfit := pendingFit_meet hn (ho o (by simp))
    have hrest := ih hfit fun o h => ho o (List.mem_cons_of_mem _ h)
    exact hfirst.trans hrest

end Node

namespace Flow

/-- From an empty table on every node is sent the numbers after 0, one after the other. -/
theorem seqs_run {f : Flow} (is : List Input) (hempty : ∀ a, f.table.nodes.find? a = none)
    (a : Address) :
    (sentTo a (f.run is).2.appended).map Message.seq =
      nextSeqs 0 (sentTo a (f.run is).2.appended).length := by
  rcases run_unknown is (hempty a) with ⟨-, hsent, -⟩ | ⟨stalled, os, hos⟩
  · rw [hsent]
    rfl
  · rw [hos.sent]
    exact (Node.countsOn_meetAll (Node.pendingFit_fresh _ _ _ _) hos.permitted).seqs

/-- A message that is not held back is all that is put into the packet. -/
theorem sent_of_buffered {f g : Flow} {a : Address} {r : Request} {seq : UInt8}
    {sent : List Message} (h : f.send a r = .ok (g, .buffered seq, sent)) :
    sent = [r.toMessage a seq] := by
  cases hc : f.checkFits a r with
  | error e => rw [send_eq_error hc] at h; cases h
  | ok u =>
    have hfits := ((f.checkFits_eq_ok_iff a r).1 hc).fits_toMessage
    rw [send_eq_ok_of_fits hc] at h
    simp only [accept] at h
    split at h
    · simp only [NodeTable.transmit, hfits, if_true, Except.ok.injEq, Prod.mk.injEq,
        Receipt.buffered.injEq] at h
      obtain ⟨-, rfl, rfl⟩ := h
      rfl
    · cases h

end Flow

namespace Link

/-- **A node is sent numbers without a gap.** Whatever happens to a link between two resets, the
teardown of a session included, the writer is given the transmitted messages, and of those for one
node the one with index `i` has the number `i % 255 + 1`, which is never 0. A message that is
reported to be in the packet under a number is the last one transmitted, under that number. -/
theorem numbered_without_gap (config : Config) (sink : Sink) (past : List Event)
    {es : List Event} (h : .reset ∉ es) :
    (begun config sink past).writer.Appends
        (((begun config sink past).transmitted es).map Message.layout)
        ((begun config sink past).run es).writer ∧
      (∀ a i m, (sentTo a ((begun config sink past).transmitted es))[i]? = some m →
        m.seq.toNat = i % 255 + 1 ∧ m.seq ≠ 0) ∧
      ∀ a r seq, (((begun config sink past).run es).send a r).2 = .ok (.buffered seq) →
        (begun config sink past).transmitted (es ++ [.traffic (.send a r)]) =
          (begun config sink past).transmitted es ++ [r.toMessage a seq] := by
  have hempty : ∀ a, (begun config sink past).flow.table.nodes.find? a = none := fun _ => rfl
  have hrun := (begun config sink past).transmitted_eq_run h
  refine ⟨?_, ?_, ?_⟩
  · rw [hrun]
    exact ((begun config sink past).run_takes h).writer
  · intro a i m hm
    have hseqs := Flow.seqs_run (es.flatMap Event.inputs) hempty a
    rw [← hrun] at hseqs
    obtain ⟨hi, -⟩ := List.getElem?_eq_some_iff.1 hm
    have hseq : m.seq = nextSeq^[i + 1] 0 := by
      have hget := congrArg (·[i]?) hseqs
      simp only [List.getElem?_map, hm, nextSeqs, List.getElem?_range hi, Option.map_some,
        Option.some.injEq] at hget
      exact hget
    have hnat : m.seq.toNat = i % 255 + 1 := by rw [hseq, toNat_iterate_nextSeq]
    refine ⟨hnat, fun hzero => ?_⟩
    rw [hzero] at hnat
    exact absurd hnat (by simp)
  · intro a r seq hsend
    have hlast : ((begun config sink past).run es).transmitted [.traffic (.send a r)] =
        [r.toMessage a seq] := by
      simp only [transmitted, Event.inputs, Traffic.inputs, Flow.run, Flow.step, List.append_nil]
      simp only [send] at hsend
      split at hsend
      · cases hsend
      case h_2 g receipt sent hs =>
        cases hsend
        simp only [hs]
        exact Flow.sent_of_buffered hs
    rw [transmitted_append, hlast]

/-- The child is sent a command at once, one after an answer and one after a stall, then the
acknowledgement of a node change, and at last the interface hears of the end of the session. -/
def allWays : List Event :=
  [sendCommand, sendCommand, .traffic (.handle (.ok [{ address := child, type := ⟨0xB0⟩ }])),
    childStalls 1, sendCommand, childStalls 0,
    .traffic (.handle (.ok [{ address := child, type := .nodeNew, payload := [7] }])), .disable]

theorem acknowledged_under_four :
    .reset ∉ allWays ∧
      ∃ m, (sentTo child (narrow.transmitted allWays))[3]? = some m ∧
        m.type = .nodeChangedAck ∧ m.seq.toNat = 4 ∧ m.seq ≠ 0 := by
  have hreset : .reset ∉ allWays := by simp [allWays, sendCommand, childStalls]
  have hm : (sentTo child (narrow.transmitted allWays))[3]? =
      some { address := child, seq := 4, type := .nodeChangedAck, payload := [7] } := by
    decide +kernel
  obtain ⟨hseq, hne⟩ :=
    (numbered_without_gap { flowControl := { defaultCredit := 1 } } {} [] hreset).2.1 child 3 _ hm
  exact ⟨hreset, _, hm, rfl, hseq, hne⟩

end Link
end RailBus
