/-
# Reading what was written

A message whose size has a place in four bytes states no length that has none, so it can
be written; what it is written as is a spelling of it, and reading that gives the message
back (`decode_encode`).
-/
import KeyedRpc.Proofs.Message.Decoding

namespace KeyedRpc

/-! ## Sizes and lengths -/

/-- No length that a value states is larger than the value. -/
theorem Value.lengths_le_size (v : Value) : ∀ n ∈ v.lengths, n ≤ v.size := by
  intro n mem
  cases v with
  | word w => cases mem
  | string s =>
    rw [List.mem_singleton.mp mem, size, blobSize]
    omega
  | words ws =>
    rw [List.mem_singleton.mp mem, size]
    omega
  | strings ss =>
    rw [size]
    rcases List.mem_cons.mp mem with rfl | mem
    · have positive : ∀ s, 0 < blobSize s := by
        intro s
        rw [blobSize]
        omega
      have count := length_le_sumOf positive ss
      omega
    · obtain ⟨s, inside, rfl⟩ := List.mem_map.mp mem
      have item : blobSize s ≤ sumOf blobSize ss := le_sumOf blobSize inside
      rw [blobSize] at item
      omega

namespace Message

/-- A message whose size has a place in four bytes is written as a spelling. -/
theorem spelt_bytes {m : Message} (h : m.size ≤ maxLength) :
    Spelt m.bytes m.method m.entries.entries := by
  have size : m.size = headerSize m.method
      + sumOf (fun entry => entrySize entry.1 entry.2) m.entries.entries := m.size_eq
  have count := mul_le_length_entries m.entries.entries
  rw [length_flatMap_entryBytes] at count
  have method : m.method.utf8ByteSize ≤ headerSize m.method := by
    rw [headerSize, Value.blobSize]
    omega
  refine ⟨m.bytes_eq_spelling, m.entries.nodup_keys, by omega, by omega, ?_⟩
  intro entry mem
  have le : entrySize entry.1 entry.2
      ≤ sumOf (fun entry => entrySize entry.1 entry.2) m.entries.entries :=
    le_sumOf (fun entry : String × Value => entrySize entry.1 entry.2) mem
  have key : entry.1.utf8ByteSize + entry.2.size ≤ entrySize entry.1 entry.2 := by
    rw [entrySize, Value.blobSize]
    omega
  refine ⟨by omega, fun n mem => ?_⟩
  have value := entry.2.lengths_le_size n mem
  omega

/-- A message is written if the number of its bytes has a place in four of them. -/
theorem encode_of_size_le {m : Message} (h : m.size ≤ maxLength) : m.encode = .ok m.bytes := by
  have spelt := spelt_bytes h
  rw [encode_eq_ok_iff, lengths_le_iff]
  exact ⟨⟨spelt.method_le, spelt.entries_fit⟩, rfl⟩

/-! ## There and back -/

/-- A message as it is read back: its limit is not written, so it gets the one that reading
gives. -/
def received (m : Message) : Message :=
  { m with
    limit := max defaultLimit m.size
    within := Or.inr (Nat.le_max_right _ _) }

/-- A message that arrives counts as equal to the one that was sent. -/
theorem received_beq (m : Message) : (m.received == m) = true := by
  show (m.method == m.method && decide (m.entries = m.entries)) = true
  rw [beq_self_eq_true, decide_eq_true rfl, Bool.and_self]

/-- A message is read back from its bytes, if their number has a place in four bytes. -/
theorem decode_bytes {m : Message} (h : m.size ≤ maxLength) : decode m.bytes = .ok m.received := by
  obtain ⟨n, read, method, perm⟩ := decode_of_spelt (spelt_bytes h)
  obtain ⟨-, -, -, limit⟩ := spelt_of_decode read
  rw [length_bytes] at limit
  rw [read, ext (n := m.received) method (KeyMap.eq_of_perm perm) limit]

/-- **Reading what a message is written as gives the message back**, with all its keys and
their values. The limit becomes the default, or the number of bytes if that is larger. -/
theorem decode_encode (m : Message) (h : m.size ≤ maxLength) :
    ∃ bytes n, m.encode = .ok bytes ∧ decode bytes = .ok n ∧ (n == m) = true ∧
      n.method = m.method ∧ n.entries = m.entries ∧ n.size = m.size ∧
      n.limit = max defaultLimit bytes.length := by
  refine ⟨m.bytes, m.received, encode_of_size_le h, decode_bytes h, m.received_beq, rfl, rfl,
    rfl, ?_⟩
  rw [length_bytes]
  rfl

/-- Values of all four kinds, among them empty strings and an empty array. -/
theorem decode_encode_four_kinds :
    ∃ m, (empty "sums.Echo").setAll [("b", .strings ["", "é"]), ("a", .words []),
        ("", .string ""), ("0", .word 7)] = .ok m ∧ m.size ≤ maxLength ∧
      ∃ bytes n, m.encode = .ok bytes ∧ decode bytes = .ok n ∧ (n == m) = true ∧
        n.method = m.method ∧ n.entries = m.entries ∧ n.size = m.size ∧
        n.limit = max defaultLimit bytes.length :=
  ⟨_, rfl, by decide, decode_encode _ (by decide)⟩

end Message

end KeyedRpc
