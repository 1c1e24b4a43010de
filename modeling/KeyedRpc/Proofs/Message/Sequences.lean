/-
# Values written in sequence

Values of any wire types are written one after another at one cursor, and a write that fails is
passed over. What this comes to is that the values which were written are put in under the
numbers of their positions (`Cursor.setAll_written`).
-/
import KeyedRpc.Proofs.Message.Positions
import Mathlib.Data.List.Nodup
import Mathlib.Data.List.Perm.Subperm

namespace KeyedRpc

open Numeral (decimal)

/-! ## Values with their types -/

/-- A wire type with contents of it. -/
abbrev WireValue : Type :=
  (t : WireType) × t.Carrier

namespace WireValue

/-- Writes contents at the cursor. -/
def write (x : WireValue) : Positional Unit :=
  x.1.write x.2

/-- The values that contents take up: one, or none if there are no contents. -/
def values (x : WireValue) : List Value :=
  x.1.values x.2

/-- Contents are written by putting in the entry that they take up, if any. -/
theorem write_apply (x : WireValue) (c : Cursor) :
    x.write c = match c.message.setAll (positioned c.next x.values) with
      | .ok m => (.ok (), ⟨m, c.next + x.values.length⟩)
      | .error e => (.error e, c) :=
  x.1.write_apply x.2 c

end WireValue

/-- Values with their types, as arguments for these types. -/
def Args.ofList : (l : List WireValue) → Args (l.map Sigma.fst)
  | [] => ()
  | x :: l => (x.2, ofList l)

namespace Cursor

/-- The cursor after values were written one after another, each whether or not those before it
failed. -/
def writeEach (c : Cursor) : List WireValue → Cursor
  | [] => c
  | x :: l => writeEach (x.write c).2 l

/-- The values among these whose writes do not fail. -/
def written (c : Cursor) : List WireValue → List WireValue
  | [] => []
  | x :: l =>
    match x.write c with
    | (.ok _, next) => x :: written next l
    | (.error _, next) => written next l

/-- A string has no room in 40 bytes; what comes after it is written in its place. -/
example : ((start (Message.withLimit "m" 40)).writeEach [⟨.keyed .word, (7 : UInt32)⟩,
    ⟨.keyed .string, "too long for it"⟩, ⟨.unit, ()⟩, ⟨.keyed .word, (8 : UInt32)⟩]).next = 2 := by
  decide

end Cursor

/-! ## Positions in a message -/

/-- There is a position for each value. -/
theorem length_positioned (n : Nat) (vs : List Value) : (positioned n vs).length = vs.length := by
  induction vs generalizing n with
  | nil => rfl
  | cons v vs ih => simp [positioned, ih]

/-- Entries with different keys that a message holds are some of its entries. -/
theorem Message.Holds.subperm {m : Message} {l : List (String × Value)}
    (distinct : (l.map Prod.fst).Nodup) (holds : m.Holds l) : l.Subperm m.entries.entries := by
  apply List.subperm_of_subset (List.Nodup.of_map Prod.fst distinct)
  intro entry mem
  exact KeyMap.mem_of_get? (holds entry mem)

/-- A message has no fewer entries than positions that hold values. -/
theorem Message.length_le_size_of_holds {m : Message} {n : Nat} {vs : List Value}
    (holds : m.Holds (positioned n vs)) : vs.length ≤ m.entries.size := by
  rw [← length_positioned n vs]
  exact (holds.subperm (nodup_positioned n vs)).length_le

/-- A key is not among positions if it is the number of none that comes before their end. -/
theorem notMem_keys_positioned {key : String} {n : Nat} {vs : List Value}
    (other : ∀ i, i < n + vs.length → key ≠ decimal i) : key ∉ (positioned n vs).map Prod.fst := by
  induction vs generalizing n with
  | nil => simp [positioned]
  | cons v vs ih =>
    rw [List.length_cons] at other
    rw [positioned, List.map_cons, List.mem_cons, not_or]
    refine ⟨other n (by omega), ih fun i lt => other i (by omega)⟩

end KeyedRpc
