import RailBus.NodeTable
import RailBus.Packet
import Mathlib.Logic.Function.Iterate

/-!
# What happens to one node

Of all that happens on a link one node sees a sequence of occurrences of a few kinds. Each first
lets flow control decide which requests go out (`regulate`), and those are then numbered
(`transmitAll`). `regulate_order` is the law of the first half, `transmitAll_eq` of the second.
-/

namespace RailBus

/-- A packet can hold the request by itself, whatever number it gets. -/
def Request.Fits (limit : Nat) (a : Address) (r : Request) : Prop :=
  (r.toMessage a magic).fits = true ∧ framedLength (r.toMessage a magic).layout ≤ limit

theorem Request.Fits.fits_toMessage {limit : Nat} {a : Address} {r : Request}
    (h : r.Fits limit a) (seq : UInt8) : (r.toMessage a seq).fits = true := h.1

/-- What was asked to be sent, of a message that was numbered and addressed. -/
def Message.request (m : Message) : Request := ⟨m.type, m.payload, m.action⟩

@[simp] theorem Request.request_toMessage (r : Request) (a : Address) (seq : UInt8) :
    (r.toMessage a seq).request = r := rfl

/-- What is kept of a transmitted message until it is answered. -/
def Message.entry (m : Message) : Outstanding := ⟨m.seq, m.type, m.action⟩

@[simp] theorem Request.entry_toMessage (r : Request) (a : Address) (seq : UInt8) :
    (r.toMessage a seq).entry = ⟨seq, r.type, r.action⟩ := rfl

/-- The transmitted messages that are to be answered. -/
def awaited (ms : List Message) : List Outstanding :=
  (ms.filter (·.request.consumesCredit)).map Message.entry

theorem awaited_append (ms ms' : List Message) :
    awaited (ms ++ ms') = awaited ms ++ awaited ms' := by
  simp [awaited]

/-- One thing that happens to a node. -/
inductive Occurrence
  /-- a message came from it -/
  | heard (seq : UInt8)
  /-- a message for it was accepted -/
  | offered (r : Request)
  /-- a message is sent to it past flow control -/
  | pushed (r : Request)
  /-- it answered its oldest request -/
  | answered
  /-- it told how much it can buffer -/
  | reported (bytes : UInt8)
  /-- it, or a node above it, stopped itself or let go -/
  | stalled (on : Bool)

namespace Occurrence

/-- The message that is accepted, which may have to wait. -/
def accepted : Occurrence → List Request
  | .offered r => [r]
  | _ => []

/-- The message that goes ahead of all that waits. -/
def urgent : Occurrence → List Request
  | .pushed r => [r]
  | _ => []

/-- The stall flag of a node after the occurrence. -/
def flag (stalled : Bool) : Occurrence → Bool
  | .stalled on => on
  | _ => stalled

/-- What is checked before anything is done: a message fits, and none that takes credit is sent
past flow control. -/
def Permitted (limit : Nat) (a : Address) : Occurrence → Prop
  | .offered r => r.Fits limit a
  | .pushed r => r.Fits limit a ∧ r.consumesCredit = false
  | _ => True

end Occurrence

namespace Node

/-! ## Numbering -/

/-- The node's part in transmitting: numbers a request and enters it as outstanding if it is to be
answered; one too large to encode is dropped. -/
def transmit (n : Node) (a : Address) (r : Request) : Node × List Message :=
  let (n, seq) := n.nextNumber
  let m := r.toMessage a seq
  if m.fits then (if r.consumesCredit then n.await ⟨seq, r.type, r.action⟩ else n, [m])
  else (n, [])

def transmitAll (n : Node) (a : Address) : List Request → Node × List Message
  | [] => (n, [])
  | r :: rest =>
    let (n, sent) := n.transmit a r
    let (n, more) := n.transmitAll a rest
    (n, sent ++ more)

/-- Messages numbered one after the other, the first with the number after `seq`. -/
def numbered (a : Address) (seq : UInt8) : List Request → List Message
  | [] => []
  | r :: rest => r.toMessage a (nextSeq seq) :: numbered a (nextSeq seq) rest

theorem numbered_request (a : Address) (seq : UInt8) (rs : List Request) :
    (numbered a seq rs).map Message.request = rs := by
  induction rs generalizing seq with
  | nil => rfl
  | cons r rest ih => simp [numbered, ih]

theorem length_awaited_numbered (a : Address) (seq : UInt8) (rs : List Request) :
    (awaited (numbered a seq rs)).length = charge rs := by
  have hcount : charge rs = charge ((numbered a seq rs).map Message.request) := by
    rw [numbered_request]
  rw [hcount, charge, List.countP_map, awaited, List.length_map, ← List.countP_eq_length_filter]
  rfl

theorem transmit_eq {limit : Nat} {a : Address} {r : Request} (h : r.Fits limit a) (n : Node) :
    n.transmit a r =
      ({ n with
          lastSeq := nextSeq n.lastSeq
          outstanding := n.outstanding ++ awaited [r.toMessage a (nextSeq n.lastSeq)] },
        [r.toMessage a (nextSeq n.lastSeq)]) := by
  have hr := h.fits_toMessage (nextSeq n.lastSeq)
  cases hc : r.consumesCredit <;>
    simp [transmit, nextNumber, hr, hc, await, awaited]

/-- Requests that fit are all sent, in order and with consecutive numbers, and those that take
credit are outstanding from then on. -/
theorem transmitAll_eq {limit : Nat} {a : Address} {rs : List Request}
    (h : ∀ r ∈ rs, r.Fits limit a) (n : Node) :
    n.transmitAll a rs =
      ({ n with
          lastSeq := nextSeq^[rs.length] n.lastSeq
          outstanding := n.outstanding ++ awaited (numbered a n.lastSeq rs) },
        numbered a n.lastSeq rs) := by
  induction rs generalizing n with
  | nil => simp [transmitAll, numbered, awaited]
  | cons r rest ih =>
    have hr : r.Fits limit a := h r (by simp)
    have hrest : ∀ r ∈ rest, r.Fits limit a := fun r hr => h r (List.mem_cons_of_mem _ hr)
    rw [transmitAll, transmit_eq hr]
    simp only [ih hrest, numbered, List.singleton_append, List.length_cons,
      Function.iterate_succ_apply, List.append_assoc, ← awaited_append]

/-- To transmit changes the number that was used last and what is outstanding, and nothing else. -/
theorem transmitAll_frame (n : Node) (a : Address) (rs : List Request) :
    ∃ last outstanding,
      (n.transmitAll a rs).1 = { n with lastSeq := last, outstanding := outstanding } := by
  induction rs generalizing n with
  | nil => exact ⟨_, _, rfl⟩
  | cons r rest ih =>
    obtain ⟨last, outstanding, hrest⟩ := ih (n.transmit a r).1
    refine ⟨last, outstanding, hrest.trans ?_⟩
    by_cases hfits : (r.toMessage a (nextSeq n.lastSeq)).fits = true <;>
      by_cases hr : r.consumesCredit = true <;> simp [transmit, nextNumber, await, hfits, hr]

theorem address_of_mem_transmitAll {n : Node} {a : Address} {rs : List Request} {m : Message}
    (h : m ∈ (n.transmitAll a rs).2) : m.address = a := by
  induction rs generalizing n with
  | nil => simp [transmitAll] at h
  | cons r rest ih =>
    simp only [transmitAll, List.mem_append] at h
    rcases h with h | h
    · simp only [transmit] at h
      split at h
      · rw [List.mem_singleton.1 h]; rfl
      · simp at h
    · exact ih h

/-! ## Flow control -/

/-- What flow control makes of an occurrence: the record, and the requests that go out. -/
def regulate (n : Node) : Occurrence → Node × List Request
  | .heard seq => ((n.observe seq).1, [])
  | .offered r =>
    match n.reserve r.consumesCredit with
    | (n, true) => (n, [r])
    | (n, false) => (n.enqueue r, [])
  | .pushed r => (n, [r])
  | .answered => (n.release.1, n.release.2.2)
  | .reported bytes => n.learn bytes
  | .stalled on => n.setStall on

/-- All that a node makes of an occurrence: its record, and the messages put into packets. -/
def meet (n : Node) (a : Address) (o : Occurrence) : Node × List Message :=
  let (n, released) := n.regulate o
  n.transmitAll a released

def meetAll (n : Node) (a : Address) : List Occurrence → Node × List Message
  | [] => (n, [])
  | o :: rest =>
    let (n, sent) := n.meet a o
    let (n, more) := n.meetAll a rest
    (n, sent ++ more)

theorem meetAll_cons (n : Node) (a : Address) (o : Occurrence) (os : List Occurrence) :
    n.meetAll a (o :: os) =
      (((n.meet a o).1.meetAll a os).1, (n.meet a o).2 ++ ((n.meet a o).1.meetAll a os).2) := rfl

theorem meetAll_append (n : Node) (a : Address) (os os' : List Occurrence) :
    n.meetAll a (os ++ os') =
      (((n.meetAll a os).1.meetAll a os').1,
        (n.meetAll a os).2 ++ ((n.meetAll a os).1.meetAll a os').2) := by
  induction os generalizing n with
  | nil => rfl
  | cons o rest ih => simp [meetAll_cons, ih]

theorem meetAll_singleton (n : Node) (a : Address) (o : Occurrence) :
    n.meetAll a [o] = n.meet a o := by
  simp [meetAll]

theorem admissible_append (credit : Nat) (rs : List Request) :
    (admissible credit rs).1 ++ (admissible credit rs).2 = rs := by
  induction rs generalizing credit with
  | nil => rfl
  | cons r rest ih =>
    cases hc : r.consumesCredit with
    | false => simp [admissible, hc, ih]
    | true =>
      cases credit with
      | zero => simp [admissible, hc]
      | succ credit => simp [admissible, hc, ih]

theorem drain_append (n : Node) : n.drain.2 ++ n.drain.1.pending = n.pending := by
  cases hs : n.stalled with
  | true => simp [drain, hs]
  | false => simp [drain, hs, admissible_append]

/-- All that `reserve` can do: take credit where there is some, or refuse and change nothing. -/
theorem reserve_cases (n : Node) (consumes : Bool) :
    (n.reserve consumes = ({ n with inUse := n.inUse + consumes.toNat }, true) ∧
      n.stalled = false ∧ n.pending = []) ∨
    (n.reserve consumes = (n, false) ∧
      (n.stalled = true ∨ n.pending ≠ [] ∨ consumes = true ∧ n.credit = 0)) := by
  cases hs : n.stalled with
  | true => simp [reserve, hs]
  | false =>
    cases hp : n.pending with
    | cons r rest => simp [reserve, hs, hp]
    | nil =>
      cases consumes with
      | false => left; cases n; simp_all [reserve]
      | true => by_cases h : n.credit = 0 <;> simp [reserve, hs, hp, h]

/-- Nothing is lost and nothing overtakes: what goes out and what then waits is what waited before
and what was accepted, in that order. Only what is sent past flow control goes ahead. -/
theorem regulate_order (n : Node) (o : Occurrence) :
    (n.regulate o).2 ++ (n.regulate o).1.pending = o.urgent ++ n.pending ++ o.accepted := by
  cases o with
  | heard seq =>
    have h : (n.observe seq).1.pending = n.pending := by
      simp only [observe]
      split <;> rfl
    simp [regulate, Occurrence.urgent, Occurrence.accepted, h]
  | offered r =>
    obtain ⟨h, -, hp⟩ | ⟨h, -⟩ := n.reserve_cases r.consumesCredit <;>
      simp [regulate, Occurrence.urgent, Occurrence.accepted, enqueue, *]
  | pushed r => simp [regulate, Occurrence.urgent, Occurrence.accepted]
  | answered =>
    simpa [regulate, release, Occurrence.urgent, Occurrence.accepted] using drain_append _
  | reported bytes =>
    simpa [regulate, learn, Occurrence.urgent, Occurrence.accepted] using drain_append _
  | stalled on => cases on <;> simp [regulate, setStall, Occurrence.urgent, Occurrence.accepted]

/-- The entry a node gets when it is first heard of or sent to. -/
def fresh (credit : UInt8) (stalled : Bool) : Node := { capacity := credit, stalled := stalled }

/-! ## Requests that fit -/

/-- All that waits for the node at `a` fits a packet. -/
def PendingFit (limit : Nat) (a : Address) (n : Node) : Prop := ∀ r ∈ n.pending, r.Fits limit a

theorem pendingFit_fresh (limit : Nat) (a : Address) (credit : UInt8) (stalled : Bool) :
    (fresh credit stalled).PendingFit limit a := by
  intro r hr
  cases hr

variable {limit : Nat} {a : Address} {n : Node} {o : Occurrence}

theorem fits_of_mem_regulate (h : n.PendingFit limit a) (ho : o.Permitted limit a) {r : Request}
    (hr : r ∈ (n.regulate o).2 ++ (n.regulate o).1.pending) : r.Fits limit a := by
  rw [regulate_order, List.mem_append, List.mem_append] at hr
  rcases hr with (hr | hr) | hr
  · cases o with
    | pushed r' => rw [List.mem_singleton.1 hr]; exact ho.1
    | _ => cases hr
  · exact h r hr
  · cases o with
    | offered r' => rw [List.mem_singleton.1 hr]; exact ho
    | _ => cases hr

/-- As long as only messages that fit are accepted, all that flow control lets go is sent. -/
theorem meet_eq (h : n.PendingFit limit a) (ho : o.Permitted limit a) :
    n.meet a o =
      ({ (n.regulate o).1 with
          lastSeq := nextSeq^[(n.regulate o).2.length] (n.regulate o).1.lastSeq
          outstanding := (n.regulate o).1.outstanding ++
            awaited (numbered a (n.regulate o).1.lastSeq (n.regulate o).2) },
        numbered a (n.regulate o).1.lastSeq (n.regulate o).2) :=
  transmitAll_eq (fun _ hr => fits_of_mem_regulate h ho (List.mem_append_left _ hr)) _

theorem pendingFit_meet (h : n.PendingFit limit a) (ho : o.Permitted limit a) :
    (n.meet a o).1.PendingFit limit a := by
  intro r hr
  rw [meet_eq h ho] at hr
  exact fits_of_mem_regulate h ho (List.mem_append_right _ hr)

/-- What every permitted occurrence preserves, together with the fitting of all that waits, holds
after any number of them. -/
theorem meetAll_induction {P : Node → Prop} {os : List Occurrence}
    (step : ∀ n o, o ∈ os → n.PendingFit limit a → P n → P (n.meet a o).1)
    (ho : ∀ o ∈ os, o.Permitted limit a) (hn : n.PendingFit limit a) (h : P n) :
    P (n.meetAll a os).1 ∧ (n.meetAll a os).1.PendingFit limit a := by
  induction os generalizing n with
  | nil => exact ⟨h, hn⟩
  | cons o rest ih =>
    have hstep := step n o (by simp) hn h
    have hfit := pendingFit_meet hn (ho o (by simp))
    exact ih (fun n o ho => step n o (List.mem_cons_of_mem _ ho))
      (fun o h => ho o (List.mem_cons_of_mem _ h)) hfit hstep

end Node
end RailBus
