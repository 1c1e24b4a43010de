/-
# Numerals

Numbers are shown in decimal, and bytes and addresses in hexadecimal. A decimal
numeral reads back to the number it shows (`readDecimal?_decimal`).
-/

namespace KeyedRpc.Numeral

/-- The decimal numeral of a number, without leading zeros. -/
def decimal (n : Nat) : String :=
  String.ofList (Nat.toDigits 10 n)

/-- The hexadecimal numeral of a number after `0x`, in lower case and filled with
zeros to `width` digits. -/
def hexadecimal (width n : Nat) : String :=
  let digits := Nat.toDigits 16 n
  String.ofList ('0' :: 'x' :: (List.replicate (width - digits.length) '0' ++ digits))

/-- A numeral is one or more decimal digits, and may follow a plus sign. -/
def readDecimal? (s : String) : Option Nat :=
  let digits := match s.toList with
    | '+' :: rest => rest
    | all => all
  if digits ≠ [] ∧ digits.all Char.isDigit then some (Nat.ofDigitChars 10 digits 0) else none

/-! ## Reading back -/

/-- A decimal numeral has digits only. -/
theorem all_isDigit_toDigits (n : Nat) : (Nat.toDigits 10 n).all Char.isDigit = true := by
  apply List.all_eq_true.mpr
  intro c h
  exact Nat.isDigit_of_mem_toDigits (by decide) (by decide) h

/-- Different numbers have different numerals. -/
theorem decimal_injective {m n : Nat} (h : decimal m = decimal n) : m = n := by
  have digits : Nat.toDigits 10 m = Nat.toDigits 10 n := String.ofList_inj.mp h
  rw [← @Nat.ofDigitChars_toDigits 10 m (by decide) (by decide), digits,
    Nat.ofDigitChars_toDigits (by decide) (by decide)]

/-- **A decimal numeral reads back to the number that it shows.** -/
theorem readDecimal?_decimal (n : Nat) : readDecimal? (decimal n) = some n := by
  have digits := all_isDigit_toDigits n
  have nonempty : Nat.toDigits 10 n ≠ [] := by
    intro h
    have := @Nat.length_toDigits_pos 10 n
    simp [h] at this
  have unsigned : (match Nat.toDigits 10 n with | '+' :: rest => rest | all => all)
      = Nat.toDigits 10 n := by
    rcases shown : Nat.toDigits 10 n with _ | ⟨c, rest⟩
    · rfl
    · -- A sign is no digit.
      have other : c ≠ '+' := by
        rintro rfl
        rw [shown] at digits
        exact absurd digits (by simp)
      simp [other]
  unfold readDecimal? decimal
  simp only [String.toList_ofList, unsigned]
  rw [if_pos ⟨nonempty, digits⟩, Nat.ofDigitChars_toDigits (by decide) (by decide)]

/-- A sign and leading zeros, which no decimal numeral has, are read as well. -/
example : readDecimal? "+012" = some 12 := by decide

/-- There is no numeral without digits. -/
example : readDecimal? "+" = none := by decide

end KeyedRpc.Numeral
