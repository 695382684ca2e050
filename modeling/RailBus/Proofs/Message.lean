import RailBus.Message

/-!
# Messages, written and read back

Writing a message fails only by its size, and what was written is read back but for the action id,
which stays on this side of the line.
-/

namespace RailBus

/-- An address is read off the front of what follows its stack. -/
theorem Address.read_stack (a : Address) (rest : Bytes) :
    Address.read (a.stack ++ rest) = .ok (a, rest) := by
  have hdepth := a.depth_le
  have htake : ((a.stack ++ rest).take (maxDepth + 1)).takeWhile (· != 0) = a.components := by
    obtain ⟨k, hk⟩ : ∃ k, maxDepth + 1 - a.components.length = k + 1 :=
      Nat.exists_eq_succ_of_ne_zero (by omega)
    have hsplit : (a.stack ++ rest).take (maxDepth + 1) = a.components ++ 0 :: rest.take k := by
      rw [stack, List.append_assoc, List.take_append, List.take_of_length_le (by omega), hk]
      rfl
    rw [hsplit, List.takeWhile_append_of_pos]
    · simp
    · intro c hc
      simpa using a.ne_zero c hc
  have hcomponents : ofComponents a.components = .ok a := by
    rw [ofComponents, dif_pos hdepth, dif_pos (by simpa using a.ne_zero)]
  have hlength : (a.stack ++ rest).length = a.components.length + 1 + rest.length := by
    rw [stack, List.length_append, List.length_append, List.length_singleton]
  have hdrop : (a.stack ++ rest).drop a.stackLength = rest := by
    rw [List.drop_append_of_le_length (by simp [stack, stackLength, depth])]
    simp [stack, stackLength, depth]
  simp only [read, htake, hlength, hcomponents, hdrop]
  rw [if_neg (by omega), if_neg (by omega)]

namespace Message

/-- What the other end reads: the action id is not sent. -/
def received (m : Message) : Message := { m with action := none }

theorem encode_of_fits {m : Message} (h : m.fits = true) : m.encode = .ok m.layout := by
  simp [encode, validate, h, Except.map]

theorem encode_of_not_fits {m : Message} (h : m.fits = false) :
    m.encode = .error (.messageTooLarge m.contentLength maxMessageLength) := by
  simp [encode, validate, h, Except.map]

theorem length_content (m : Message) : m.content.length = m.contentLength := by
  simp [content, contentLength, Address.stack, Address.stackLength, Address.depth]
  omega

theorem length_layout (m : Message) : m.layout.length = 1 + m.contentLength := by
  rw [layout, List.length_cons, length_content, Nat.add_comm]

theorem decode_content (m : Message) : decode m.content = .ok m.received := by
  rw [decode, content, Address.read_stack]
  rfl

theorem contentLength_le_of_fits {m : Message} (h : m.fits = true) : m.contentLength ≤ 255 := by
  have hfits : m.contentLength ≤ maxMessageLength := by simpa [fits] using h
  simp only [maxMessageLength] at hfits
  omega

/-- Also a message that may not be sent is read back, if its length fits a byte. -/
theorem decodeAll_layout_append {m : Message} (h : m.contentLength ≤ 255) (rest : Bytes) :
    decodeAll (m.layout ++ rest) = (decodeAll rest).map (m.received :: ·) := by
  have hbyte : (UInt8.ofNat m.contentLength).toNat = m.contentLength := by
    rw [UInt8.toNat_ofNat', Nat.mod_eq_of_lt]
    omega
  have hleast : ¬ m.contentLength < minMessageLength := by
    simp only [contentLength, minMessageLength, Address.stackLength]
    omega
  have hlength := m.length_content
  have henough : ¬ (m.content ++ rest).length < m.contentLength := by
    rw [List.length_append]
    omega
  have htake : (m.content ++ rest).take m.contentLength = m.content := by
    rw [← hlength, List.take_left]
  have hdrop : (m.content ++ rest).drop m.contentLength = rest := by
    rw [← hlength, List.drop_left]
  rw [layout, List.cons_append, decodeAll]
  simp only [hbyte, if_neg hleast, if_neg henough, htake, hdrop, decode_content]

/-- Messages laid out back to back are read back, and what follows them is read next. -/
theorem decodeAll_layouts_append {ms : List Message} (h : ∀ m ∈ ms, m.contentLength ≤ 255)
    (rest : Bytes) :
    decodeAll (ms.flatMap layout ++ rest) = (decodeAll rest).map (ms.map received ++ ·) := by
  induction ms with
  | nil => cases hrest : decodeAll rest <;> simp [hrest, Except.map]
  | cons m more ih =>
    have hmore := ih fun m' h' => h m' (List.mem_cons_of_mem _ h')
    rw [List.flatMap_cons, List.append_assoc, decodeAll_layout_append (h m (by simp)), hmore]
    cases decodeAll rest <;> rfl

theorem decodeAll_layouts {ms : List Message} (h : ∀ m ∈ ms, m.contentLength ≤ 255) :
    decodeAll (ms.flatMap layout) = .ok (ms.map received) := by
  have hall := decodeAll_layouts_append h []
  rw [List.append_nil] at hall
  rw [hall]
  simp [decodeAll, Except.map]

end Message
end RailBus
