/-
# Values

A value under a key is a word, a string, an array of words or an array of strings, and
nothing is nested deeper. A value is the same thing as a kind together with contents of
that kind: `Value.of` joins the two and `Value.as?` takes the contents out again.
-/
import KeyedRpc.Measure

namespace KeyedRpc

/-! ## Kinds -/

/-- What a key may hold. -/
inductive Kind where
  | word
  | string
  | words
  | strings
  deriving DecidableEq, Repr

namespace Kind

/-- The name of a kind, as it appears in messages to people. -/
def name : Kind → String
  | word => "word"
  | string => "string"
  | words => "word-array"
  | strings => "string-array"

/-- The contents that a value of a kind has. Words have 32 bits. -/
@[reducible] def Carrier : Kind → Type
  | word => UInt32
  | string => String
  | words => List UInt32
  | strings => List String

end Kind

/-! ## Values -/

/-- A value stored under one key. -/
inductive Value where
  | word (w : UInt32)
  | string (s : String)
  | words (ws : List UInt32)
  | strings (ss : List String)
  deriving DecidableEq, Repr

namespace Value

/-- The kind of a value. -/
def kind : Value → Kind
  | word _ => .word
  | string _ => .string
  | words _ => .words
  | strings _ => .strings

/-- The value of a kind with given contents. -/
def of : (k : Kind) → k.Carrier → Value
  | .word, w => word w
  | .string, s => string s
  | .words, ws => words ws
  | .strings, ss => strings ss

/-- The contents of a value, if it is of the asked kind. -/
def as? : (k : Kind) → Value → Option k.Carrier
  | .word, word w => some w
  | .string, string s => some s
  | .words, words ws => some ws
  | .strings, strings ss => some ss
  | _, _ => none

/-- A value that is made of a kind is of that kind. -/
@[simp] theorem kind_of (k : Kind) (x : k.Carrier) : (of k x).kind = k := by
  cases k <;> rfl

/-- The contents of which a value was made are taken out of it again. -/
@[simp] theorem as?_of (k : Kind) (x : k.Carrier) : as? k (of k x) = some x := by
  cases k <;> rfl

/-- Every value is one of a kind. -/
theorem exists_of (v : Value) : ∃ (k : Kind) (x : k.Carrier), v = of k x := by
  cases v with
  | word w => exact ⟨.word, w, rfl⟩
  | string s => exact ⟨.string, s, rfl⟩
  | words ws => exact ⟨.words, ws, rfl⟩
  | strings ss => exact ⟨.strings, ss, rfl⟩

/-- Contents are taken out of a value if and only if it is made of them. -/
theorem as?_eq_some_iff {k : Kind} {v : Value} {x : k.Carrier} :
    as? k v = some x ↔ v = of k x := by
  cases k <;> cases v <;> simp [as?, of]

/-- Nothing is taken out of a value if and only if another kind is asked for. -/
theorem as?_eq_none_iff {k : Kind} {v : Value} : as? k v = none ↔ v.kind ≠ k := by
  cases k <;> cases v <;> simp [as?, kind]

/-! ## Sizes -/

/-- The bytes that a string takes up: a tag, a length of four bytes, and its text. -/
def blobSize (s : String) : Nat :=
  1 + 4 + s.utf8ByteSize

/-- The bytes that a value takes up, with its tag. -/
def size : Value → Nat
  | word _ => 1 + 4
  | string s => blobSize s
  | words ws => 1 + 4 + 4 * ws.length
  | strings ss => 1 + 4 + sumOf blobSize ss

/-- Every value has a tag and four bytes more. -/
theorem five_le_size (v : Value) : 5 ≤ v.size := by
  cases v with
  | word w => exact Nat.le_refl 5
  | string s => exact Nat.le_add_right 5 _
  | words ws => exact Nat.le_add_right 5 _
  | strings ss => exact Nat.le_add_right 5 _

end Value

end KeyedRpc
