/-
# Messages

A message is a method name and a flat map from keys to values. It has a limit on its
size in bytes and keeps count of the bytes that it takes up, so that a value which does
not fit is refused before the message grows. That the count is exact and that a message
with entries keeps within its limit is part of the type.
-/
import KeyedRpc.KeyMap
import KeyedRpc.Message.Error

namespace KeyedRpc

/-! ## Sizes -/

/-- The bytes of a message without entries: the method name and the count of entries. -/
def headerSize (method : String) : Nat :=
  Value.blobSize method + 4

/-- The bytes of an entry: its key and its value. -/
def entrySize (key : String) (value : Value) : Nat :=
  Value.blobSize key + value.size

/-- The limit of a message for which none is chosen: 16 MiB. -/
def defaultLimit : Nat :=
  16 * 1024 * 1024

/-- A method name with keyed values, and a limit on the bytes they may take up. -/
structure Message where
  method : String
  entries : KeyMap Value
  limit : Nat
  size : Nat
  size_eq : size = headerSize method + entries.total entrySize
  within : entries = KeyMap.empty ∨ size ≤ limit

namespace Message

/-- Messages are told apart by method, entries and limit. -/
theorem ext {m n : Message} (method : m.method = n.method) (entries : m.entries = n.entries)
    (limit : m.limit = n.limit) : m = n := by
  have size : m.size = n.size := by rw [m.size_eq, n.size_eq, method, entries]
  cases m
  cases n
  cases method
  cases entries
  cases limit
  cases size
  rfl

/-- Messages count as equal when they have the same method and entries; the limit on a
message is no part of what it says. -/
instance : BEq Message where
  beq m n := m.method == n.method && decide (m.entries = n.entries)

/-- Messages count as equal if and only if they have the same method and the same entries. -/
theorem beq_iff {m n : Message} :
    (m == n) = true ↔ m.method = n.method ∧ m.entries = n.entries := by
  show (m.method == n.method && decide (m.entries = n.entries)) = true ↔ _
  rw [Bool.and_eq_true, beq_iff_eq, decide_eq_true_iff]

/-- A message counts as equal to itself. -/
theorem beq_self (m : Message) : (m == m) = true :=
  beq_iff.mpr ⟨rfl, rfl⟩

/-! ## Making and emptying -/

/-- The message without entries for a method, with a limit on its size. -/
def withLimit (method : String) (limit : Nat) : Message where
  method
  entries := KeyMap.empty
  limit
  size := headerSize method
  size_eq := rfl
  within := Or.inl rfl

/-- The message without entries for a method, with the default limit. -/
def empty (method : String) : Message :=
  withLimit method defaultLimit

instance : Inhabited Message := ⟨empty ""⟩

/-- Takes away all entries and keeps the method and the limit. -/
def clear (m : Message) : Message :=
  withLimit m.method m.limit

/-! ## Looking up -/

/-- The value under a key. -/
def get? (m : Message) (key : String) : Option Value :=
  m.entries.get? key

/-- Whether a key holds a value. -/
def contains (m : Message) (key : String) : Bool :=
  m.entries.contains key

/-- The contents under a key that must hold a value of the given kind. -/
def get (m : Message) (kind : Kind) (key : String) : Except MessageError kind.Carrier :=
  match m.get? key with
  | none => .error (.badKey key)
  | some value =>
    match value.as? kind with
    | none => .error (.typeMismatch key kind value.kind)
    | some contents => .ok contents

/-! ## Setting -/

/-- The bytes that the entry under a key takes up, zero if there is none. -/
def held (m : Message) (key : String) : Nat :=
  ((m.get? key).map (entrySize key)).getD 0

/-- The size that a message has once a key holds a value: the entry which the value
replaces gives back its bytes. -/
def needed (m : Message) (key : String) (value : Value) : Nat :=
  m.size - m.held key + entrySize key value

/-- The bytes of one entry are among those of all entries. -/
theorem held_le_total (m : Message) (key : String) : m.held key ≤ m.entries.total entrySize :=
  KeyMap.measure_get?_le_total entrySize m.entries key

/-- No entry takes up more bytes than the message. -/
theorem held_le_size (m : Message) (key : String) : m.held key ≤ m.size := by
  have le := m.held_le_total key
  have size := m.size_eq
  omega

/-- The size that is needed for a value is that of the header and of all entries with it. -/
theorem needed_eq (m : Message) (key : String) (value : Value) :
    m.needed key value
      = headerSize m.method + (m.entries.insert key value).total entrySize := by
  have sum : (m.entries.insert key value).total entrySize + m.held key
      = m.entries.total entrySize + entrySize key value :=
    KeyMap.total_insert entrySize m.entries key value
  have le := m.held_le_total key
  have size := m.size_eq
  unfold needed
  omega

/-- Puts a value under a key, in place of the value that the key had; refused if the
message would then be larger than its limit. -/
def set (m : Message) (key : String) (value : Value) : Except MessageError Message :=
  if h : m.needed key value ≤ m.limit then
    .ok
      { method := m.method
        entries := m.entries.insert key value
        limit := m.limit
        size := m.needed key value
        size_eq := m.needed_eq key value
        within := Or.inr h }
  else
    .error (.bufferTooSmall (m.needed key value) m.limit)

/-- A value is put in if and only if there is room for it, and nothing else changes. -/
theorem set_eq_ok_iff {m n : Message} {key : String} {value : Value} :
    m.set key value = .ok n ↔
      m.needed key value ≤ m.limit ∧ n.method = m.method ∧
        n.entries = m.entries.insert key value ∧ n.limit = m.limit := by
  unfold set
  constructor
  · intro h
    by_cases le : m.needed key value ≤ m.limit
    · rw [dif_pos le] at h
      cases h
      exact ⟨le, rfl, rfl, rfl⟩
    · rw [dif_neg le] at h
      cases h
  · rintro ⟨le, method, entries, limit⟩
    rw [dif_pos le]
    exact congrArg Except.ok (ext method.symm entries.symm limit.symm)

/-- A value is put in if there is room for it. -/
theorem exists_set {m : Message} {key : String} {value : Value}
    (room : m.needed key value ≤ m.limit) : ∃ n, m.set key value = .ok n :=
  ⟨_, dif_pos room⟩

/-- A key that holds nothing takes up no bytes. -/
theorem held_of_absent {m : Message} {key : String} (absent : m.contains key = false) :
    m.held key = 0 := by
  have none : m.get? key = none := by
    simpa [contains, KeyMap.contains, get?] using absent
  rw [held, none]
  rfl

/-- A value under a new key adds the bytes of its entry. -/
theorem needed_of_absent {m : Message} {key : String} (absent : m.contains key = false)
    (value : Value) : m.needed key value = m.size + entrySize key value := by
  rw [needed, held_of_absent absent, Nat.sub_zero]

/-- A message has the size that was needed for the last value put into it. -/
theorem size_set {m n : Message} {key : String} {value : Value} (h : m.set key value = .ok n) :
    n.size = m.needed key value := by
  obtain ⟨-, method, entries, -⟩ := set_eq_ok_iff.mp h
  rw [n.size_eq, method, entries, m.needed_eq]

/-- A message that a value was put into keeps within its limit. -/
theorem size_le_limit_of_set {m n : Message} {key : String} {value : Value}
    (h : m.set key value = .ok n) : n.size ≤ n.limit := by
  obtain ⟨le, -, -, limit⟩ := set_eq_ok_iff.mp h
  rw [size_set h, limit]
  exact le

/-- The key holds the value that was put under it, and all other keys what they held. -/
theorem get?_set {m n : Message} {key : String} {value : Value} (h : m.set key value = .ok n)
    (k : String) : n.get? k = if k = key then some value else m.get? k := by
  obtain ⟨-, -, entries, -⟩ := set_eq_ok_iff.mp h
  rw [get?, entries, KeyMap.get?_insert]
  rfl

/-- A value of a kind is found by those who ask for that kind. -/
theorem get_of_get? {m : Message} {kind : Kind} {x : kind.Carrier} {key : String}
    (h : m.get? key = some (Value.of kind x)) : m.get kind key = .ok x := by
  rw [get, h]
  dsimp only
  rw [Value.as?_of]

/-- Contents that are found under a key are those of the value that it holds. -/
theorem get?_of_get {m : Message} {kind : Kind} {x : kind.Carrier} {key : String}
    (h : m.get kind key = .ok x) : m.get? key = some (Value.of kind x) := by
  unfold get at h
  rcases held : m.get? key with _ | value
  · rw [held] at h
    cases h
  · rw [held] at h
    dsimp only at h
    rcases taken : value.as? kind with _ | contents
    · rw [taken] at h
      cases h
    · rw [taken] at h
      cases h
      rw [Value.as?_eq_some_iff.mp taken]

/-- Puts several values under their keys, in order. -/
def setAll (m : Message) (entries : List (String × Value)) : Except MessageError Message :=
  entries.foldlM (fun m entry => m.set entry.1 entry.2) m

end Message

end KeyedRpc
