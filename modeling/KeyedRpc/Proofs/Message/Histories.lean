/-
# Histories of messages

A message comes about in steps: it is made or read, keys are set, refused or replaced, and
it is cleared. Whatever the steps were, the size that it keeps count of is the number of
bytes that it is written as, and a value is refused exactly if the message with that value
would be written as more bytes than the limit allows (`Message.after_counted`). Edits leave
the method and the limit as they were (`Message.edits_keep`).
-/
import KeyedRpc.Proofs.Message.Spelling

namespace KeyedRpc

namespace Message

/-! ## Edits -/

/-- What can be done to the entries of a message. -/
inductive Edit where
  /-- Put a value under a key, if there is room for it. -/
  | set (key : String) (value : Value)
  /-- Take all entries away. -/
  | clear

/-- The message after an edit. A value that is refused changes nothing. -/
def edit (m : Message) : Edit → Message
  | .set key value =>
    match m.set key value with
    | .ok n => n
    | .error _ => m
  | .clear => m.clear

/-- The message after edits, one after another. -/
def edits (m : Message) (l : List Edit) : Message :=
  l.foldl edit m

/-- An edit that puts in a value leads to the message with it. -/
theorem edit_of_set {m n : Message} {key : String} {value : Value}
    (h : m.set key value = .ok n) : m.edit (.set key value) = n := by
  rw [edit, h]

/-- No edit changes the method or the limit. -/
theorem edit_keeps (m : Message) (e : Edit) :
    (m.edit e).method = m.method ∧ (m.edit e).limit = m.limit := by
  cases e with
  | set key value =>
    rw [edit]
    cases h : m.set key value with
    | ok n =>
      obtain ⟨-, method, -, limit⟩ := set_eq_ok_iff.mp h
      exact ⟨method, limit⟩
    | error e => exact ⟨rfl, rfl⟩
  | clear => exact ⟨rfl, rfl⟩

/-- Edits change neither the method nor the limit. -/
theorem edits_keep (m : Message) (l : List Edit) :
    (m.edits l).method = m.method ∧ (m.edits l).limit = m.limit := by
  induction l generalizing m with
  | nil => exact ⟨rfl, rfl⟩
  | cons e l ih =>
    have first := m.edit_keeps e
    have rest := ih (m.edit e)
    exact ⟨rest.1.trans first.1, rest.2.trans first.2⟩

/-! ## Histories -/

/-- What can happen to a message that somebody holds. -/
inductive Event where
  /-- A message without entries takes its place. -/
  | make (method : String) (limit : Nat)
  /-- It is edited. -/
  | edit (e : Edit)
  /-- A copy takes its place. -/
  | copy
  /-- A message that is read takes its place, if the bytes are one. -/
  | read (bytes : List UInt8)

/-- The message that is held after an event. -/
def happen (m : Message) : Event → Message
  | .make method limit => withLimit method limit
  | .edit e => m.edit e
  | .copy => m
  | .read bytes =>
    match decode bytes with
    | .ok n => n
    | .error _ => m

/-- The message that is held after a history. -/
def after (m : Message) (history : List Event) : Message :=
  history.foldl happen m

/-! ## Sizes -/

/-- What is needed for a value is the number of bytes that the message is written as with the
value in it. -/
theorem needed_eq_length (m : Message) (key : String) (value : Value) :
    m.needed key value = (spelling m.method (m.entries.insert key value).entries).length := by
  rw [needed_eq, length_spelling]
  rfl

/-- A message that a value was put into is spelled with the value among its entries. -/
theorem bytes_of_set {m n : Message} {key : String} {value : Value}
    (h : m.set key value = .ok n) :
    n.bytes = spelling m.method (m.entries.insert key value).entries := by
  obtain ⟨-, method, entries, -⟩ := set_eq_ok_iff.mp h
  rw [bytes_eq_spelling, method, entries]

/-- A value is refused if and only if there is no room, and the refusal says how much is needed. -/
theorem set_eq_error_iff {m : Message} {key : String} {value : Value} {e : MessageError} :
    m.set key value = .error e ↔
      m.limit < m.needed key value ∧ e = .bufferTooSmall (m.needed key value) m.limit := by
  unfold set
  by_cases room : m.needed key value ≤ m.limit
  · rw [dif_pos room]
    constructor
    · intro h
      cases h
    · rintro ⟨exceeds, -⟩
      omega
  · rw [dif_neg room, Except.error.injEq, eq_comm]
    have exceeds : m.limit < m.needed key value := by omega
    exact ⟨fun same => ⟨exceeds, same⟩, fun refused => refused.2⟩

/-- A message keeps exact count of its bytes. -/
structure Counted (m : Message) : Prop where
  /-- Its size is the number of bytes that it is written as. -/
  size_eq : m.size = m.bytes.length
  encode_length : ∀ bytes, m.encode = .ok bytes → bytes.length = m.size
  /-- It has no entries, or keeps within its limit. -/
  within : m.entries = KeyMap.empty ∨ m.size ≤ m.limit
  /-- No entry gives back more bytes than the message has. -/
  held_le : ∀ key, m.held key ≤ m.size
  /-- A value is refused if and only if the message with it would be written as more bytes
  than the limit allows, and the refusal says how many these are. -/
  refused_iff : ∀ key value e, m.set key value = .error e ↔
    m.limit < (spelling m.method (m.entries.insert key value).entries).length ∧
      e = .bufferTooSmall (spelling m.method (m.entries.insert key value).entries).length m.limit
  /-- With a value that is not refused, it is written as just that. -/
  accepted : ∀ key value n, m.set key value = .ok n →
    n.bytes = spelling m.method (m.entries.insert key value).entries

/-- Every message keeps exact count of its bytes. -/
theorem counted (m : Message) : Counted m where
  size_eq := m.length_bytes.symm
  encode_length := by
    intro bytes written
    obtain ⟨-, rfl⟩ := encode_eq_ok_iff.mp written
    exact m.length_bytes
  within := m.within
  held_le := m.held_le_size
  refused_iff := by
    intro key value e
    rw [set_eq_error_iff, needed_eq_length]
  accepted := fun _ _ _ => bytes_of_set

/-- **A message keeps exact count of its bytes, whatever its history.** -/
theorem after_counted (method : String) (limit : Nat) (history : List Event) :
    Counted ((withLimit method limit).after history) :=
  counted _

/-- A value replaces one of another kind, a second is refused, and the first is as it was. -/
example : ((withLimit "m" 32).after [.edit (.set "k" (.words [1, 2])), .edit (.set "k" (.word 1)),
    .copy, .edit (.set "k" (.string "too long for it"))]).size = 21 := by
  decide

end Message

end KeyedRpc
