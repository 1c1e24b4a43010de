/-
# A store of words

A hub holds a fixed number of words, addressed from zero. An access reads or writes words
in a row, all of which must be in the store.
-/
import KeyedRpc.Text.Numeral

namespace KeyedRpc

open Numeral (decimal hexadecimal)

/-! ## Errors -/

/-- A failure to access a store. -/
inductive MemoryError where
  /-- The access goes past the end of the store. -/
  | outOfRange (address : UInt32) (count size : Nat)
  /-- The store was left in the middle of an access. -/
  | poisoned
  deriving DecidableEq, Repr

namespace MemoryError

/-- The text that reports a failure. -/
def text : MemoryError → String
  | outOfRange address count size =>
    "access of " ++ decimal count ++ " words at " ++ hexadecimal 1 address.toNat
      ++ " is outside memory of " ++ decimal size ++ " words"
  | poisoned => "memory store poisoned"

end MemoryError

/-! ## Accesses -/

/-- A store of words. -/
structure Hub where
  words : List UInt32
  deriving DecidableEq, Repr

namespace Hub

/-- A store of words that are all zero. -/
def zeroed (size : Nat) : Hub := ⟨List.replicate size 0⟩

/-- The number of words. -/
def size (h : Hub) : Nat := h.words.length

/-- An access must end within the store; the address of an access to no words must do so
too. -/
def check (h : Hub) (address : UInt32) (count : Nat) : Except MemoryError Unit :=
  if address.toNat + count ≤ h.size then .ok ()
  else .error (.outOfRange address count h.size)

/-- The words in a row from an address on. -/
def read (h : Hub) (address : UInt32) (count : Nat) : Except MemoryError (List UInt32) :=
  (h.check address count).map fun () => (h.words.drop address.toNat).take count

/-- The store with words in a row replaced from an address on. -/
def write (h : Hub) (address : UInt32) (data : List UInt32) : Except MemoryError Hub :=
  (h.check address data.length).map fun () =>
    ⟨h.words.take address.toNat ++ data ++ h.words.drop (address.toNat + data.length)⟩

@[simp] theorem size_zeroed (n : Nat) : (zeroed n).size = n :=
  List.length_replicate

/-- A write keeps the number of words. -/
theorem size_write {h h' : Hub} {address : UInt32} {data : List UInt32}
    (eq : h.write address data = .ok h') : h'.size = h.size := by
  unfold write check size at *
  by_cases le : address.toNat + data.length ≤ h.words.length
  · rw [if_pos le] at eq
    cases eq
    simp
    omega
  · rw [if_neg le] at eq
    cases eq

end Hub

end KeyedRpc
