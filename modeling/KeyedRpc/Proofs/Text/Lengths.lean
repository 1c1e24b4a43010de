/-
# Lengths of numerals

A numeral takes as many bytes as it has digits, and a number below a power of ten has no more
digits than the power says (`utf8ByteSize_decimal_le`). So the texts that show numbers have
lengths that are known beforehand.
-/
import KeyedRpc.Text.Numeral
import Mathlib.Algebra.Group.Nat.Defs

namespace KeyedRpc.Numeral

/-- A character takes four bytes at most. -/
theorem utf8ByteSize_ofList_le (l : List Char) : (String.ofList l).utf8ByteSize ≤ 4 * l.length := by
  induction l with
  | nil => exact Nat.le_refl 0
  | cons c l ih =>
    have le := c.utf8Size_le_four
    rw [String.ofList_cons, String.utf8ByteSize_append, String.utf8ByteSize_singleton,
      List.length_cons]
    omega

theorem utf8ByteSize_append_le {s t : String} {m n : Nat} (first : s.utf8ByteSize ≤ m)
    (second : t.utf8ByteSize ≤ n) : (s ++ t).utf8ByteSize ≤ m + n := by
  rw [String.utf8ByteSize_append]
  exact Nat.add_le_add first second

/-- A digit takes one byte. -/
theorem utf8ByteSize_ofList_digits {l : List Char} (digits : ∀ c ∈ l, c.isDigit = true) :
    (String.ofList l).utf8ByteSize = l.length := by
  induction l with
  | nil => rfl
  | cons c l ih =>
    rw [List.forall_mem_cons] at digits
    have first : c.utf8Size = 1 := by
      have digit := digits.1
      rw [Char.utf8Size_eq_one_iff]
      simp [Char.isDigit, UInt32.le_iff_toNat_le] at digit ⊢
      omega
    rw [String.ofList_cons, String.utf8ByteSize_append, String.utf8ByteSize_singleton, first,
      ih digits.2, List.length_cons, Nat.add_comm]

/-- A numeral takes as many bytes as it has digits. -/
theorem utf8ByteSize_decimal (n : Nat) :
    (decimal n).utf8ByteSize = (Nat.toDigits 10 n).length :=
  utf8ByteSize_ofList_digits (List.all_eq_true.mp (all_isDigit_toDigits n))

theorem utf8ByteSize_decimal_pos (n : Nat) : 0 < (decimal n).utf8ByteSize := by
  rw [utf8ByteSize_decimal]
  exact Nat.length_toDigits_pos

/-- The numeral of a number of `k` digits at most. -/
theorem utf8ByteSize_decimal_le {n k : Nat} (pos : 0 < k) (few : n < 10 ^ k) :
    (decimal n).utf8ByteSize ≤ k := by
  rw [utf8ByteSize_decimal]
  exact (Nat.length_toDigits_le_iff (by decide) pos).mpr few

theorem utf8ByteSize_hexadecimal_le {width n k : Nat} (filled : width ≤ k)
    (digits : (Nat.toDigits 16 n).length ≤ k) :
    (hexadecimal width n).utf8ByteSize ≤ 4 * (k + 2) := by
  unfold hexadecimal
  refine Nat.le_trans (utf8ByteSize_ofList_le _) ?_
  simp only [List.length_cons, List.length_append, List.length_replicate]
  omega

end KeyedRpc.Numeral
