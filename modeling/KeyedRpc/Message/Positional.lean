/-
# Keys by position

A cursor numbers the keys of a message from zero: what is pushed first is found under
`"0"`, what is pushed next under `"1"`. Pulling takes the values up again in the same
order. A push or a pull that fails leaves the cursor and the message as they were.
-/
import KeyedRpc.Message.Basic

namespace KeyedRpc

open Numeral (decimal)

/-- A message with the number of the next key to write or to read. The number has no bound here,
while the program that is modelled counts in 32 bits. Both come to the same as long as fewer than
2^32 keys are gone past (`WordCursor.unbounded_writeEach`), which is always so in a message whose
size and limit have a place in four bytes (`WordCursor.after_unwrapped`). -/
structure Cursor where
  message : Message
  next : Nat

/-- Work on a cursor that may fail; what was done before the failure stays done. -/
abbrev Positional (α : Type) : Type :=
  ExceptT MessageError (StateM Cursor) α

/-- Work on a state that fails ends there, and what it did to the state stays done. -/
theorem bind_apply {ε σ α β : Type} (x : ExceptT ε (StateM σ) α)
    (f : α → ExceptT ε (StateM σ) β) (s : σ) :
    (x >>= f) s = match x s with
      | (.ok a, s) => f a s
      | (.error e, s) => (.error e, s) := by
  simp only [bind, ExceptT.bind, ExceptT.mk, StateT.bind]
  cases x s with
  | mk result s => cases result <;> rfl

theorem map_apply {ε σ α β : Type} (f : α → β) (x : ExceptT ε (StateM σ) α) (s : σ) :
    (f <$> x) s = ((x s).1.map f, (x s).2) := by
  simp only [Functor.map, ExceptT.map, ExceptT.mk, bind, StateT.bind]
  cases x s with
  | mk result s => cases result <;> rfl

theorem lift_apply {ε ε' σ α : Type} (x : ExceptT ε (StateM σ) α) (s : σ) :
    (ExceptT.lift x : ExceptT ε' (ExceptT ε (StateM σ)) α) s
      = ((x s).1.map Except.ok, (x s).2) :=
  map_apply Except.ok x s

namespace Cursor

/-- The cursor at the first key of a message. -/
def start (m : Message) : Cursor :=
  ⟨m, 0⟩

/-- The next key. -/
def key (c : Cursor) : String :=
  decimal c.next

/-- Stores a value under the next key. -/
def push (value : Value) : Positional Unit := fun c =>
  match c.message.set c.key value with
  | .ok m => (.ok (), ⟨m, c.next + 1⟩)
  | .error e => (.error e, c)

/-- Takes up the value under the next key, which must be of the given kind. -/
def pull (kind : Kind) : Positional kind.Carrier := fun c =>
  match c.message.get kind c.key with
  | .ok x => (.ok x, ⟨c.message, c.next + 1⟩)
  | .error e => (.error e, c)

end Cursor

end KeyedRpc
