/-
# What decoding accepts

Bytes spell a method and a list of entries if they hold the method, the number of entries
and the entries in the order of the list, each key once. Decoding accepts exactly the
bytes that spell something, and finds what they spell. The entries of a message have an
order of their own, so bytes that list them in another order are accepted and do not come
back when the message is written.
-/
import KeyedRpc.Proofs.Message.Readers

namespace KeyedRpc

open Utf8 (Precedes)

/-! ## Spellings -/

namespace Message

/-- The bytes that list a method and entries, in the order of the list. -/
def spelling (method : String) (l : List (String × Value)) : List UInt8 :=
  Value.blob method ++ littleEndian l.length ++ l.flatMap entryBytes

/-- What an entry states as lengths has a place in four bytes. -/
def EntryFits (entry : String × Value) : Prop :=
  entry.1.utf8ByteSize ≤ maxLength ∧ entry.2.Fits

instance (entry : String × Value) : Decidable (EntryFits entry) :=
  inferInstanceAs (Decidable (entry.1.utf8ByteSize ≤ maxLength ∧ entry.2.Fits))

/-- Bytes spell a method and a list of entries. -/
structure Spelt (bytes : List UInt8) (method : String) (l : List (String × Value)) : Prop where
  eq_spelling : bytes = spelling method l
  distinct : (l.map Prod.fst).Nodup
  method_le : method.utf8ByteSize ≤ maxLength
  count_le : l.length ≤ maxLength
  entries_fit : ∀ entry ∈ l, EntryFits entry

/-- A spelling has the bytes that are counted for the method and for each entry. -/
theorem length_spelling (method : String) (l : List (String × Value)) :
    (spelling method l).length
      = headerSize method + sumOf (fun entry => entrySize entry.1 entry.2) l := by
  rw [spelling, List.length_append, List.length_append, length_flatMap_entryBytes,
    Value.length_blob]
  rfl

/-- A message is written as the spelling of its entries in key order. -/
theorem bytes_eq_spelling (m : Message) : m.bytes = spelling m.method m.entries.entries := rfl

/-- A message has bytes if and only if all lengths in it have a place in four bytes. -/
theorem encode_eq_ok_iff {m : Message} {bytes : List UInt8} :
    m.encode = .ok bytes ↔ (∀ n ∈ m.lengths, n ≤ maxLength) ∧ bytes = m.bytes := by
  have within : m.lengths.find? (maxLength < ·) = none ↔ ∀ n ∈ m.lengths, n ≤ maxLength := by
    simp [List.find?_eq_none]
  rw [← within]
  unfold encode
  constructor
  · intro h
    rcases found : m.lengths.find? (maxLength < ·) with _ | length
    · rw [found] at h
      cases h
      exact ⟨rfl, rfl⟩
    · rw [found] at h
      cases h
  · rintro ⟨none, rfl⟩
    rw [none]

/-- All lengths in a message have a place in four bytes if those of the method and of each entry do.
-/
theorem lengths_le_iff (m : Message) :
    (∀ n ∈ m.lengths, n ≤ maxLength) ↔
      m.method.utf8ByteSize ≤ maxLength ∧ ∀ entry ∈ m.entries.entries, EntryFits entry := by
  unfold lengths
  rw [List.forall_mem_cons, List.forall_mem_flatMap]
  simp only [List.forall_mem_cons]
  rfl

/-! ## Putting in entries with new keys -/

/-- The keys of a list differ from one another and are new to a message. -/
def Fresh (m : Message) (l : List (String × Value)) : Prop :=
  (l.map Prod.fst).Nodup ∧ ∀ entry ∈ l, m.contains entry.1 = false

/-- To a message without entries, all keys are new. -/
theorem fresh_withLimit (method : String) (limit : Nat) (l : List (String × Value)) :
    (withLimit method limit).Fresh l ↔ (l.map Prod.fst).Nodup :=
  and_iff_left fun _ _ => rfl

/-- A list is new if its first key is, and the rest is new once the first value is put in. -/
theorem fresh_cons_iff {m n : Message} {entry : String × Value} {l : List (String × Value)}
    (h : m.set entry.1 entry.2 = .ok n) :
    m.Fresh (entry :: l) ↔ m.contains entry.1 = false ∧ n.Fresh l := by
  obtain ⟨-, -, entries, -⟩ := set_eq_ok_iff.mp h
  have contains : ∀ key, n.contains key = false ↔ key ≠ entry.1 ∧ m.contains key = false := by
    intro key
    rw [← Bool.not_eq_true, ← Bool.not_eq_true, Message.contains, entries,
      KeyMap.contains_insert, not_or]
    rfl
  simp only [Fresh, contains, List.map_cons, List.nodup_cons, List.mem_map, List.forall_mem_cons]
  constructor
  · rintro ⟨⟨notIn, nodup⟩, absent, new⟩
    refine ⟨absent, nodup, fun other mem => ⟨?_, new other mem⟩⟩
    intro same
    exact notIn ⟨other, mem, same⟩
  · rintro ⟨absent, nodup, new⟩
    refine ⟨⟨?_, nodup⟩, absent, fun other mem => (new other mem).2⟩
    rintro ⟨other, mem, same⟩
    exact (new other mem).1 same

theorem setAll_cons (m : Message) (entry : String × Value) (l : List (String × Value)) :
    m.setAll (entry :: l) = m.set entry.1 entry.2 >>= fun n => n.setAll l := by
  rw [setAll, List.foldlM_cons]
  rfl

/-- With new keys, the entries of the list come on top of those that are there. -/
theorem setAll_fresh {l : List (String × Value)} {m n : Message} (fresh : m.Fresh l)
    (h : m.setAll l = .ok n) :
    n.method = m.method ∧ n.limit = m.limit ∧ n.entries.entries.Perm (l ++ m.entries.entries) := by
  -- The message is general: the rest of the list comes on top of a larger one.
  induction l generalizing m with
  | nil =>
    cases h
    exact ⟨rfl, rfl, List.Perm.refl _⟩
  | cons entry l ih =>
    rw [setAll_cons, bind_eq_ok_iff] at h
    obtain ⟨m', set, rest⟩ := h
    obtain ⟨absent, fresh⟩ := (fresh_cons_iff set).mp fresh
    obtain ⟨method, limit, perm⟩ := ih fresh rest
    obtain ⟨-, method', entries, limit'⟩ := set_eq_ok_iff.mp set
    refine ⟨method.trans method', limit.trans limit', perm.trans ?_⟩
    rw [entries]
    exact ((m.entries.perm_insert entry.2 absent).append_left l).trans List.perm_middle

/-- A list with new keys can be put in if there is room for all of it. -/
theorem exists_setAll {l : List (String × Value)} {m : Message} (fresh : m.Fresh l)
    (room : m.size + sumOf (fun entry => entrySize entry.1 entry.2) l ≤ m.limit) :
    ∃ n, m.setAll l = .ok n := by
  induction l generalizing m with
  | nil => exact ⟨m, rfl⟩
  | cons entry l ih =>
    rw [sumOf_cons] at room
    -- An entry with a new key takes up its own size, which leaves room for the rest.
    have absent := fresh.2 entry List.mem_cons_self
    have needed := needed_of_absent absent entry.2
    obtain ⟨m', set⟩ : ∃ m', m.set entry.1 entry.2 = .ok m' := exists_set (by omega)
    have size := size_set set
    obtain ⟨-, -, -, limit⟩ := set_eq_ok_iff.mp set
    obtain ⟨n, rest⟩ := ih ((fresh_cons_iff set).mp fresh).2 (by omega)
    refine ⟨n, ?_⟩
    rw [setAll_cons, bind_eq_ok_iff]
    exact ⟨m', set, rest⟩

end Message

end KeyedRpc
