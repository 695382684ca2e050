import RailBus.PacketWriter

/-!
# What a packet writer is given

`Appends` follows a writer through appended messages and closed packets. However packets are
closed in between, every message that was handed over is counted once.
-/

namespace RailBus
namespace PacketWriter

/-- From `w` a writer comes to `w'` by appending `bodies` in order and closing packets at will. -/
inductive Appends (w : PacketWriter) : List Bytes → PacketWriter → Prop
  | refl : Appends w [] w
  | append {bodies : List Bytes} {w' : PacketWriter} (body : Bytes) :
      Appends w bodies w' → Appends w (bodies ++ [body]) (w'.append body)
  | flush {bodies : List Bytes} {w' : PacketWriter} :
      Appends w bodies w' → Appends w bodies w'.flush

theorem Appends.trans {w w' w'' : PacketWriter} {bodies bodies' : List Bytes}
    (h : Appends w bodies w') (h' : Appends w' bodies' w'') :
    Appends w (bodies ++ bodies') w'' := by
  induction h' with
  | refl => rwa [List.append_nil]
  | append body _ ih => rw [← List.append_assoc]; exact ih.append body
  | flush _ ih => exact ih.flush

theorem appends_appendAll (w : PacketWriter) (bodies : List Bytes) :
    Appends w bodies (w.appendAll bodies) := by
  induction bodies generalizing w with
  | nil => exact .refl
  | cons body rest ih => exact (Appends.refl.append body).trans (ih (w.append body))

/-! ## Handing over -/

section handOver

variable (w : PacketWriter) (packet : Bytes)

@[simp] theorem limit_handOver : (w.handOver packet).limit = w.limit := by
  simp only [handOver]
  split <;> rfl

@[simp] theorem sink_handOver : (w.handOver packet).sink = (w.sink.write packet).1 := by
  simp only [handOver]
  split <;> rfl

@[simp] theorem packetsWritten_handOver :
    (w.handOver packet).packetsWritten = w.packetsWritten + (w.sink.accepts 0).toNat := by
  by_cases h : w.sink.accepts 0 = true <;> simp [handOver, Sink.write, h]

@[simp] theorem writeErrors_handOver :
    (w.handOver packet).writeErrors = w.writeErrors + (!w.sink.accepts 0).toNat := by
  by_cases h : w.sink.accepts 0 = true <;> simp [handOver, Sink.write, h]

end handOver

theorem flush_of_empty {w : PacketWriter} (h : w.messages = 0) : w.flush = w := by
  rw [flush, if_pos h]

theorem flush_eq {w : PacketWriter} (h : w.messages ≠ 0) :
    w.flush = (w.handOver (w.buffer ++ escape [w.checksum.register] ++ [magic])).discard := by
  rw [flush, if_neg h]
  rfl

/-! ## The limit -/

@[simp] theorem limit_flush (w : PacketWriter) : w.flush.limit = w.limit := by
  by_cases h : w.messages = 0
  · rw [flush_of_empty h]
  · rw [flush_eq h]
    exact w.limit_handOver _

theorem limit_append (w : PacketWriter) (body : Bytes) : (w.append body).limit = w.limit := by
  simp only [append]
  split <;> simp

theorem Appends.limit {w w' : PacketWriter} {bodies : List Bytes} (h : Appends w bodies w') :
    w'.limit = w.limit := by
  induction h with
  | refl => rfl
  | append body _ ih => rw [limit_append, ih]
  | flush _ ih => rw [limit_flush, ih]

/-! ## Counting messages -/

@[simp] theorem messagesSent_flush (w : PacketWriter) : w.flush.messagesSent = w.messagesSent := by
  unfold flush
  split
  · rfl
  · simp only [handOver]
    split <;> rfl

theorem messagesSent_append (w : PacketWriter) (body : Bytes) :
    (w.append body).messagesSent = w.messagesSent + 1 := by
  simp only [append]
  split <;> simp

theorem Appends.messagesSent_eq {w w' : PacketWriter} {bodies : List Bytes}
    (h : Appends w bodies w') : w'.messagesSent = w.messagesSent + bodies.length := by
  induction h with
  | refl => rfl
  | append body _ ih =>
    rw [messagesSent_append, ih, List.length_append, List.length_singleton, Nat.add_assoc]
  | flush _ ih => rw [messagesSent_flush, ih]

end PacketWriter
end RailBus
