/-
# Messages as maps

A message is a map from keys to values, with a bound on its bytes. Its entries list each key
once, in ascending order of the keys' bytes; a key is read as the kind of the value that it
holds, and as no other. Whatever its history, a key holds what it was given last
(`Message.after_refines`): the value that it was set to, nothing if all entries were taken
away, or what bytes list for it if the message was read from them.

The bytes of a message tell the map and nothing besides: two messages have the same bytes if
and only if they are equal, in whatever order, over whatever values and within whatever limits
their keys were set (`Message.encode_canonical`).
-/
import KeyedRpc.Proofs.Message.Histories
import KeyedRpc.Proofs.Message.RoundTrip

namespace KeyedRpc

open Utf8 (Precedes)

namespace Message

/-! ## One point of a history -/

/-- A key that holds a value is read as its kind and refused as any other; a key that holds
none is refused as any kind. -/
theorem get_cases (m : Message) (key : String) :
    (∃ (kind : Kind) (x : kind.Carrier), m.get? key = some (Value.of kind x) ∧
        m.get kind key = .ok x ∧
        ∀ other, other ≠ kind → m.get other key = .error (.typeMismatch key other kind)) ∨
      (m.get? key = none ∧ ∀ kind, m.get kind key = .error (.badKey key)) := by
  cases held : m.get? key with
  | none =>
    refine Or.inr ⟨rfl, fun kind => ?_⟩
    simp [get, held]
  | some value =>
    obtain ⟨kind, x, rfl⟩ := value.exists_of
    refine Or.inl ⟨kind, x, rfl, get_of_get? held, fun other ne => ?_⟩
    have refused : (Value.of kind x).as? other = none := by
      rw [Value.as?_eq_none_iff, Value.kind_of]
      exact ne.symm
    simp [get, held, refused]

/-- A value that is refused changes nothing. -/
theorem edit_of_refused {m : Message} {key : String} {value : Value} {e : MessageError}
    (h : m.set key value = .error e) : m.edit (.set key value) = m := by
  rw [edit, h]

/-- A message is a map from keys to values. -/
structure Keyed (m : Message) : Prop where
  /-- Its entries are listed in strictly ascending order of the bytes of their keys. -/
  ascending : m.entries.entries.Pairwise fun a b => Utf8.encode a.1 < Utf8.encode b.1
  /-- Each key is listed once. -/
  distinct : (m.entries.entries.map Prod.fst).Nodup
  /-- What is listed are the keys with the values that they hold. -/
  listed : ∀ key value, (key, value) ∈ m.entries.entries ↔ m.get? key = some value
  /-- A key holds the value that it is set to, and all other keys hold what they held. -/
  accepted : ∀ key value n, m.set key value = .ok n →
    n.get? key = some value ∧ ∀ other, other ≠ key → n.get? other = m.get? other
  /-- A value that is refused changes neither the entries nor the size nor the limit. -/
  refused : ∀ key value e, m.set key value = .error e → m.edit (.set key value) = m
  /-- A key that holds a value is read as the kind of this value alone; any other key is read as
  no kind. -/
  read : ∀ key,
    (∃ (kind : Kind) (x : kind.Carrier), m.get? key = some (Value.of kind x) ∧
        m.get kind key = .ok x ∧
        ∀ other, other ≠ kind → m.get other key = .error (.typeMismatch key other kind)) ∨
      (m.get? key = none ∧ ∀ kind, m.get kind key = .error (.badKey key))

/-- Every message is a map from keys to values. -/
theorem keyed (m : Message) : Keyed m where
  ascending := m.entries.ascending
  distinct := m.entries.nodup_keys
  listed := fun _ _ => KeyMap.get?_eq_some_iff.symm
  accepted := by
    intro key value n h
    constructor
    · rw [get?_set h, if_pos rfl]
    · intro other ne
      rw [get?_set h, if_neg ne]
  refused := fun _ _ _ => edit_of_refused
  read := m.get_cases

/-! ## What a history gives a key -/

/-- What an event gives a key to hold, if it touches the key: a value, or nothing. -/
def gives (m : Message) (key : String) : Event → Option (Option Value)
  | .make _ _ => some none
  | .edit (.set key' value) =>
    match m.set key' value with
    | .ok _ => if key = key' then some (some value) else none
    | .error _ => none
  | .edit .clear => some none
  | .copy => none
  | .read bytes =>
    match decode bytes with
    | .ok n => some (n.get? key)
    | .error _ => none

/-- A key holds what an event gives it, and what it held if the event does not touch it. -/
theorem get?_happen (m : Message) (e : Event) (key : String) :
    (m.happen e).get? key = (m.gives key e).getD (m.get? key) := by
  cases e with
  | make method limit => rfl
  | edit e =>
    cases e with
    | set key' value =>
      cases h : m.set key' value with
      | ok n =>
        rw [happen, edit_of_set h, get?_set h]
        by_cases same : key = key' <;> simp [gives, h, same]
      | error e =>
        rw [happen, edit_of_refused h]
        simp [gives, h]
    | clear => rfl
  | copy => rfl
  | read bytes =>
    cases h : decode bytes with
    | ok n => simp [happen, gives, h]
    | error e => simp [happen, gives, h]

/-- Nothing that happens to a message touches a key. -/
def Untouched (key : String) : Message → List Event → Prop
  | _, [] => True
  | m, e :: later => m.gives key e = none ∧ Untouched key (m.happen e) later

/-- The last event of a history that touches a key gives it this to hold. -/
def GivenLast (start : Message) (history : List Event) (key : String) (held : Option Value) :
    Prop :=
  ∃ before e later, history = before ++ e :: later ∧
    (start.after before).gives key e = some held ∧
    Untouched key (start.after (before ++ [e])) later

/-- What was given last after an event was given last in the history with it. -/
theorem GivenLast.cons {m : Message} {history : List Event} {key : String} {held : Option Value}
    {e : Event} (h : GivenLast (m.happen e) history key held) :
    GivenLast m (e :: history) key held := by
  obtain ⟨before, last, later, rfl, given, untouched⟩ := h
  exact ⟨e :: before, last, later, rfl, given, untouched⟩

/-- A key holds what it was given last, or what it held before it was touched. -/
theorem get?_after (start : Message) (history : List Event) (key : String) :
    (Untouched key start history ∧ (start.after history).get? key = start.get? key) ∨
      GivenLast start history key ((start.after history).get? key) := by
  -- The start is general: the rest of a history goes on with the message after the first event.
  induction history generalizing start with
  | nil => exact Or.inl ⟨trivial, rfl⟩
  | cons e later ih =>
    have first := start.get?_happen e key
    rcases ih (start.happen e) with ⟨untouched, held⟩ | given
    · cases gives : start.gives key e with
      | none =>
        refine Or.inl ⟨⟨gives, untouched⟩, held.trans ?_⟩
        rw [first, gives, Option.getD_none]
      | some given =>
        have last : (start.after (e :: later)).get? key = given := by
          rw [gives, Option.getD_some] at first
          exact held.trans first
        rw [last]
        exact Or.inr ⟨[], e, later, rfl, gives, untouched⟩
    · exact Or.inr given.cons

/-- A message that is read holds under each key what its bytes list for it. -/
theorem exists_listed_of_decode {bytes : List UInt8} {m : Message} (h : decode bytes = .ok m) :
    ∃ l, Spelt bytes m.method l ∧ ∀ key, m.get? key = l.lookup key := by
  obtain ⟨l, spelt, perm, -⟩ := spelt_of_decode h
  exact ⟨l, spelt, fun key => (KeyMap.lookup_of_perm perm key).symm⟩

/-- **Whatever its history, a message is a map from keys to values, and each key holds what it
was given last.** A message that is read gives each key what its bytes list for it. -/
theorem after_refines (start : Message) (history : List Event) :
    Keyed (start.after history) ∧
      (∀ key, (Untouched key start history ∧ (start.after history).get? key = start.get? key) ∨
        GivenLast start history key ((start.after history).get? key)) ∧
      ∀ bytes m, decode bytes = .ok m →
        ∃ l, Spelt bytes m.method l ∧ ∀ key, m.get? key = l.lookup key :=
  ⟨keyed _, get?_after start history, fun _ _ => exists_listed_of_decode⟩

/-! ## One form in bytes -/

/-- Messages have the same bytes if and only if they have the same method and entries. -/
theorem bytes_eq_iff {m n : Message} (m_le : m.size ≤ maxLength) (n_le : n.size ≤ maxLength) :
    m.bytes = n.bytes ↔ m.method = n.method ∧ m.entries = n.entries := by
  constructor
  · intro same
    -- Both are what is read from the bytes that they share.
    have read : m.received = n.received := by
      apply Except.ok.inj
      rw [← decode_bytes m_le, ← decode_bytes n_le, same]
    have method := congrArg Message.method read
    have entries := congrArg Message.entries read
    exact ⟨method, entries⟩
  · rintro ⟨method, entries⟩
    rw [bytes_eq_spelling, bytes_eq_spelling, method, entries]

/-- Messages have the same entries if and only if their keys have the same values. -/
theorem entries_eq_iff {m n : Message} :
    m.entries = n.entries ↔ ∀ key, m.get? key = n.get? key := by
  constructor
  · intro same key
    rw [get?, get?, same]
  · exact KeyMap.eq_of_get?

/-- **A message has one form in bytes.** Two messages, each with a history of its own, are
written as the same bytes if and only if they are equal, that is if they have the same method
and each key holds the same in both. -/
theorem encode_canonical (start₁ start₂ : Message) (history₁ history₂ : List Event)
    (le₁ : (start₁.after history₁).size ≤ maxLength)
    (le₂ : (start₂.after history₂).size ≤ maxLength) :
    ∃ bytes₁ bytes₂, (start₁.after history₁).encode = .ok bytes₁ ∧
      (start₂.after history₂).encode = .ok bytes₂ ∧
      ((start₁.after history₁ == start₂.after history₂) = true ↔ bytes₁ = bytes₂) ∧
      (bytes₁ = bytes₂ ↔ (start₁.after history₁).method = (start₂.after history₂).method ∧
        ∀ key, (start₁.after history₁).get? key = (start₂.after history₂).get? key) := by
  have same := bytes_eq_iff le₁ le₂
  refine ⟨_, _, encode_of_size_le le₁, encode_of_size_le le₂, ?_, ?_⟩
  · rw [beq_iff, same]
  · rw [same, entries_eq_iff]

/-- Two keys are set, one of them twice. -/
def setTwice : List Event :=
  [.edit (.set "b" (.word 1)), .edit (.set "a" (.string "é")), .edit (.set "b" (.word 2))]

/-- The same keys are set the other way round, after a value that has no room in 40 bytes. -/
def setAfterRefusal : List Event :=
  [.edit .clear, .edit (.set "a" (.string "é")), .edit (.set "b" (.words [1, 2, 3])),
    .edit (.set "b" (.word 2))]

/-- Neither the order nor a value that was replaced or refused nor the limit is in the bytes. -/
theorem encode_canonical_reordered :
    ((empty "m").after setTwice).size ≤ maxLength ∧
      ((withLimit "m" 40).after setAfterRefusal).size ≤ maxLength ∧
      ∃ bytes, ((empty "m").after setTwice).encode = .ok bytes ∧
        ((withLimit "m" 40).after setAfterRefusal).encode = .ok bytes := by
  have le₁ : ((empty "m").after setTwice).size ≤ maxLength := by decide
  have le₂ : ((withLimit "m" 40).after setAfterRefusal).size ≤ maxLength := by decide
  obtain ⟨bytes₁, bytes₂, written₁, written₂, same, -⟩ :=
    encode_canonical (empty "m") (withLimit "m" 40) setTwice setAfterRefusal le₁ le₂
  have equal : bytes₁ = bytes₂ := same.mp (by decide)
  exact ⟨le₁, le₂, bytes₁, written₁, equal ▸ written₂⟩

end Message

end KeyedRpc
