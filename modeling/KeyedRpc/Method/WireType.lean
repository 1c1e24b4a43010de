/-
# Wire types

The types of arguments and results. A wire type either takes up one key that holds a
value of its kind, or is the unit type, which takes up none. A list of arguments has one
component for each wire type of its list.
-/
import KeyedRpc.Message.Positional

namespace KeyedRpc

/-- A type that arguments and results may have. -/
inductive WireType where
  /-- Nothing: no key is taken up. -/
  | unit
  /-- One key with a value of a kind. -/
  | keyed (kind : Kind)
  deriving DecidableEq, Repr

instance : Coe Kind WireType := ⟨WireType.keyed⟩

namespace WireType

/-- The values of a wire type. -/
@[reducible] def Carrier : WireType → Type
  | unit => Unit
  | keyed kind => kind.Carrier

/-- The kind of the key that a wire type takes up. -/
def kind? : WireType → Option Kind
  | unit => none
  | keyed kind => some kind

/-- Writes a value at the cursor. -/
def write : (t : WireType) → t.Carrier → Positional Unit
  | unit, _ => pure ()
  | keyed kind, x => Cursor.push (Value.of kind x)

/-- Reads a value at the cursor. -/
def read : (t : WireType) → Positional t.Carrier
  | unit => pure ()
  | keyed kind => Cursor.pull kind

end WireType

/-! ## Lists of arguments -/

/-- The arguments for a list of wire types. -/
@[reducible] def Args : List WireType → Type
  | [] => Unit
  | t :: ts => t.Carrier × Args ts

namespace Args

/-- The kinds of the keys that arguments take up, in order. -/
def kinds (ts : List WireType) : List Kind :=
  ts.filterMap WireType.kind?

/-- Writes arguments from left to right, up to the first that fails. -/
def write : (ts : List WireType) → Args ts → Positional Unit
  | [], _ => pure ()
  | t :: ts, (x, xs) => do
    t.write x
    write ts xs

/-- Reads arguments from left to right, up to the first that fails. -/
def read : (ts : List WireType) → Positional (Args ts)
  | [] => pure ()
  | t :: ts => do
    let x ← t.read
    let xs ← read ts
    pure (x, xs)

end Args

end KeyedRpc
