import RailBus.Proofs.PacketSize
import RailBus.Proofs.Renewal

/-!
# What is refused

A link refuses a message for its size and for nothing else (`refused_for_size`). The size is told by
the message and its address, and so is the reason that is given (`Oversized`). Whatever the link has
been through it gives the same answer, and a refusal leaves it as it was. What it has been through
only decides whether a message that is accepted has to wait.
-/

namespace RailBus

/-- Stuffing adds one byte for each that has to be escaped. -/
theorem escapedLength_eq (bs : Bytes) : escapedLength bs = bs.length + bs.countP needsEscape := by
  induction bs with
  | nil => rfl
  | cons b rest ih =>
    rw [escapedLength, ih, List.length_cons, List.countP_cons]
    split <;> omega

namespace Request

/-- What the length byte would have to say: the address stack, number, type and payload. -/
def bodyLength (a : Address) (r : Request) : Nat := a.stackLength + 2 + r.payload.length

/-- The bytes of a packet around the message alone, at most: besides its body two delimiters, the
length byte, two bytes of checksum, and one byte more for the number and for each byte of the
address, type and payload that has to be escaped. -/
def room (a : Address) (r : Request) : Nat :=
  r.bodyLength a + 6 + (a.components ++ r.type.code :: r.payload).countP needsEscape

/-- Why a message is too large where packets may have `limit` bytes. The room it takes is told only
if a length byte can say how long it is. -/
inductive Oversized (limit : Nat) (a : Address) (r : Request) : LinkError → Prop
  | tooLong : 127 < r.bodyLength a →
      Oversized limit a r (.wire (.messageTooLarge (r.bodyLength a) 127))
  | tooWide : r.bodyLength a ≤ 127 → limit < r.room a →
      Oversized limit a r (.capacity (r.room a) limit)

variable {limit : Nat} {a : Address} {r : Request} {e : LinkError}

theorem needsEscape_ofNat {n : Nat} (h : n ≤ 127) : needsEscape (UInt8.ofNat n) = false := by
  have hnat : (UInt8.ofNat n).toNat = n := by
    rw [UInt8.toNat_ofNat', Nat.mod_eq_of_lt]
    omega
  rw [Bool.eq_false_iff, ne_eq, needsEscape_iff]
  rintro (hmagic | hmark)
  · rw [hmagic] at hnat
    simp only [magic, UInt8.reduceToNat] at hnat
    omega
  · rw [hmark] at hnat
    simp only [escapeMark, UInt8.reduceToNat] at hnat
    omega

/-- The room is what the message is measured with under a number that has to be escaped. -/
theorem framedLength_magic (h : r.bodyLength a ≤ 127) :
    framedLength (r.toMessage a magic).layout = r.room a := by
  have hlength : (r.toMessage a magic).layout.length = 1 + r.bodyLength a :=
    (r.toMessage a magic).length_layout
  have hsplit : (r.toMessage a magic).layout =
      UInt8.ofNat (r.bodyLength a) :: (a.components ++ [0] ++ magic :: r.type.code :: r.payload) :=
    rfl
  have hcount : (r.toMessage a magic).layout.countP needsEscape =
      (a.components ++ r.type.code :: r.payload).countP needsEscape + 1 := by
    have hmagic : needsEscape magic = true := rfl
    have hzero : needsEscape 0 = false := rfl
    simp only [hsplit, List.countP_cons, List.countP_append, List.countP_nil, needsEscape_ofNat h,
      hmagic, hzero, Bool.false_eq_true, if_true, if_false]
    omega
  rw [framedLength, escapedLength_eq, hlength, hcount, packetTrailerMax, room]
  omega

theorem Oversized.isRejectedInput (h : r.Oversized limit a e) : e.isRejectedInput = true := by
  cases h <;> rfl

end Request

namespace Flow

variable {f : Flow} {a : Address} {r : Request} {e : LinkError}

theorem checkFits_eq_error_iff : f.checkFits a r = .error e ↔ r.Oversized f.limit a e := by
  by_cases hlong : 127 < r.bodyLength a
  · have hfits : (r.toMessage a magic).fits = false := decide_eq_false (Nat.not_le.2 hlong)
    have hcheck : f.checkFits a r = .error (.wire (.messageTooLarge (r.bodyLength a) 127)) := by
      rw [checkFits, Message.encode_of_not_fits hfits]
      rfl
    rw [hcheck]
    constructor
    · rintro ⟨⟩
      exact .tooLong hlong
    · rintro (_ | ⟨hshort, -⟩)
      · rfl
      · omega
  · have hshort : r.bodyLength a ≤ 127 := Nat.not_lt.1 hlong
    have hfits : (r.toMessage a magic).fits = true := decide_eq_true hshort
    rw [checkFits, Message.encode_of_fits hfits]
    simp only [Request.framedLength_magic hshort]
    split
    case isTrue hroom =>
      constructor
      · rintro ⟨⟩
      · rintro (_ | ⟨-, hwide⟩) <;> omega
    case isFalse hroom =>
      constructor
      · rintro ⟨⟩
        exact .tooWide hshort (Nat.not_le.1 hroom)
      · rintro (_ | ⟨-, hwide⟩)
        · omega
        · rfl

end Flow

/-- A message for the node would have to wait: the node is stalled, others wait already, or its
credit is used up. -/
def Node.IsBusyFor (n : Node) (r : Request) : Prop :=
  n.stalled = true ∨ n.pending ≠ [] ∨ r.consumesCredit = true ∧ n.credit = 0

/-- What becomes of an accepted message is told by the entry of its node. -/
theorem Flow.receipt_accept (f : Flow) (a : Address) (r : Request) :
    ((∃ seq, (f.accept a r).2.1 = .buffered seq) ∧ ¬ (f.table.node a).IsBusyFor r) ∨
      (f.accept a r).2.1 = .queued ∧ (f.table.node a).IsBusyFor r := by
  obtain ⟨hreserve, hrunning, hnone⟩ | ⟨hreserve, hbusy⟩ :=
    (f.table.node a).reserve_cases r.consumesCredit
  · left
    constructor
    · simp only [accept, NodeTable.reserve, NodeTable.update_eq_put, hreserve, if_true]
      exact ⟨_, rfl⟩
    · rintro (hstalled | hpending | ⟨hr, hcredit⟩)
      · rw [hrunning] at hstalled
        cases hstalled
      · exact hpending hnone
      · -- a request is not let through where there is no credit
        simp [Node.reserve, hrunning, hnone, hr, hcredit] at hreserve
  · right
    refine ⟨?_, hbusy⟩
    simp only [accept, NodeTable.reserve, NodeTable.update_eq_put, hreserve, Bool.false_eq_true,
      if_false]

namespace Link

variable {l : Link} {a : Address} {r : Request} {e : LinkError}

theorem send_eq_error_iff : (l.send a r).2 = .error e ↔ r.Oversized l.flow.limit a e := by
  rw [← Flow.checkFits_eq_error_iff]
  cases hc : l.flow.checkFits a r with
  | error e' => rw [send, Flow.send_eq_error hc, Except.error.injEq, Except.error.injEq]
  | ok u =>
    rw [send, Flow.send_eq_ok_of_fits hc]
    constructor <;> rintro ⟨⟩

theorem send_of_oversized (h : r.Oversized l.flow.limit a e) : l.send a r = (l, .error e) := by
  rw [send, Flow.send_eq_error (Flow.checkFits_eq_error_iff.2 h)]

/-- A message that is not too large is buffered, or queued where its node is busy. -/
theorem send_of_not_oversized (h : ∀ e, ¬ r.Oversized l.flow.limit a e) :
    ((∃ seq, (l.send a r).2 = .ok (.buffered seq)) ∧ ¬ (l.flow.table.node a).IsBusyFor r) ∨
      (l.send a r).2 = .ok .queued ∧ (l.flow.table.node a).IsBusyFor r := by
  have hfits : l.flow.checkFits a r = .ok () := by
    cases hc : l.flow.checkFits a r with
    | ok u => rfl
    | error e => exact absurd (Flow.checkFits_eq_error_iff.1 hc) (h e)
  have hsend : (l.send a r).2 = .ok (l.flow.accept a r).2.1 := by
    rw [send, Flow.send_eq_ok_of_fits hfits]
  rw [hsend]
  rcases l.flow.receipt_accept a r with ⟨⟨seq, hseq⟩, hfree⟩ | ⟨hqueued, hbusy⟩
  · rw [hseq]
    exact .inl ⟨⟨seq, rfl⟩, hfree⟩
  · rw [hqueued]
    exact .inr ⟨rfl, hbusy⟩

theorem limit_performAll (config : Config) (sink : Sink) (os : List Operation) :
    ((new config sink).performAll os).1.flow.limit = config.link.maxPacketSize :=
  congrArg (·.2.1.1) ((new config sink).settings_performAll os)

/-- **A message is refused for its size only, and a refusal leaves no trace.** Whatever was done
with a link, it refuses a message exactly if the body would be longer than 127, or else if a packet
around the message, numbered so that the number takes the most room, would be larger than
configured. The error tells which and is one of rejected input, and the link is as it was: its
nodes, packet, inboxes, counters and sink. Any other message is buffered, or queued where its node
is busy. -/
theorem refused_for_size (config : Config) (sink : Sink) (os : List Operation) (a : Address)
    (r : Request) :
    let l := ((new config sink).performAll os).1
    let limit := config.link.maxPacketSize
    (∀ e, (l.send a r).2 = .error e ↔ r.Oversized limit a e) ∧
      (∀ e, r.Oversized limit a e → l.send a r = (l, .error e) ∧ e.isRejectedInput = true) ∧
      ((∀ e, ¬ r.Oversized limit a e) →
        ((∃ seq, (l.send a r).2 = .ok (.buffered seq)) ∧ ¬ (l.flow.table.node a).IsBusyFor r) ∨
          (l.send a r).2 = .ok .queued ∧ (l.flow.table.node a).IsBusyFor r) ∧
      (r.bodyLength a ≤ 127 → framedLength (r.toMessage a magic).layout = r.room a) := by
  intro l limit
  have hlimit : l.flow.limit = limit := limit_performAll config sink os
  rw [← hlimit]
  refine ⟨?_, ?_, send_of_not_oversized, Request.framedLength_magic⟩
  · intro e
    exact send_eq_error_iff
  · intro e h
    exact ⟨send_of_oversized h, h.isRejectedInput⟩

/-- A node that waits for an answer is sent a command of seven bytes. One byte more is refused, if
only because one of the seven has to be escaped, and a command that is far too long is refused for
its length alone. -/
theorem eighteen_bytes_refused :
    let l := ((new tight {}).performAll [.send child command]).1
    let stuffed : Request := { command with payload := [magic, 2, 3, 4, 5, 6, 7] }
    let long : Request := { command with payload := List.replicate 124 0 }
    let plain : Request := { command with payload := [1, 2, 3, 4, 5, 6, 7] }
    l.send child stuffed = (l, .error (.capacity 18 17)) ∧
      l.send child long = (l, .error (.wire (.messageTooLarge 128 127))) ∧
      (∀ e, ¬ plain.Oversized 17 child e) ∧ (l.send child plain).2 = .ok .queued := by
  intro l stuffed long plain
  have hstuffed : stuffed.Oversized 17 child (.capacity 18 17) :=
    .tooWide (by decide) (by decide)
  have hlength : long.bodyLength child = 128 := by
    rw [Request.bodyLength, List.length_replicate]
    rfl
  have hlong : long.Oversized 17 child (.wire (.messageTooLarge 128 127)) := by
    rw [← hlength]
    exact .tooLong (by omega)
  have hplain : ∀ e, ¬ plain.Oversized 17 child e := by
    rintro e (htooLong | ⟨-, htooWide⟩)
    · exact absurd htooLong (by decide)
    · exact absurd htooWide (by decide)
  obtain ⟨-, hrefused, -, -⟩ := refused_for_size tight {} [.send child command] child stuffed
  obtain ⟨-, hrefused', -, -⟩ := refused_for_size tight {} [.send child command] child long
  obtain ⟨-, -, haccepted, -⟩ := refused_for_size tight {} [.send child command] child plain
  refine ⟨(hrefused _ hstuffed).1, (hrefused' _ hlong).1, hplain, ?_⟩
  rcases haccepted hplain with ⟨-, hfree⟩ | ⟨hqueued, -⟩
  · refine absurd ?_ hfree
    exact .inr (.inr ⟨by decide, by decide +kernel⟩)
  · exact hqueued

end Link
end RailBus
