/-
# Sums of a measure

The sum of a measure over the members of a list, which is how sizes of lists are counted.
-/

namespace KeyedRpc

universe u

variable {α : Type u}

/-- The sum of a measure over a list. -/
def sumOf (measure : α → Nat) : List α → Nat
  | [] => 0
  | a :: l => measure a + sumOf measure l

@[simp] theorem sumOf_nil (measure : α → Nat) : sumOf measure [] = 0 := rfl

@[simp] theorem sumOf_cons (measure : α → Nat) (a : α) (l : List α) :
    sumOf measure (a :: l) = measure a + sumOf measure l := rfl

/-- The sum over two lists in a row is that over both. -/
theorem sumOf_append (measure : α → Nat) (l k : List α) :
    sumOf measure (l ++ k) = sumOf measure l + sumOf measure k := by
  induction l with
  | nil => simp
  | cons a l ih =>
    rw [List.cons_append, sumOf_cons, sumOf_cons, ih]
    omega

/-- The order of a list does not matter to the sum. -/
theorem sumOf_perm {measure : α → Nat} {l k : List α} (h : l.Perm k) :
    sumOf measure l = sumOf measure k := by
  induction h with
  | nil => rfl
  | cons a _ ih => rw [sumOf_cons, sumOf_cons, ih]
  | swap a b l =>
    rw [sumOf_cons, sumOf_cons, sumOf_cons, sumOf_cons]
    omega
  | trans _ _ first second => exact first.trans second

/-- The measure of a member is part of the sum. -/
theorem le_sumOf (measure : α → Nat) {a : α} {l : List α} (mem : a ∈ l) :
    measure a ≤ sumOf measure l := by
  induction l with
  | nil => cases mem
  | cons b l ih =>
    rw [sumOf_cons]
    rcases List.mem_cons.mp mem with rfl | mem
    · omega
    · have le := ih mem
      omega

/-- A part of a list has no larger sum. -/
theorem sumOf_le_of_sublist {measure : α → Nat} {l k : List α} (h : l.Sublist k) :
    sumOf measure l ≤ sumOf measure k := by
  induction h with
  | slnil => exact Nat.le_refl 0
  | cons a _ ih =>
    rw [sumOf_cons]
    omega
  | cons_cons a _ ih =>
    rw [sumOf_cons, sumOf_cons]
    omega

/-- A list whose members measure no less than a number each sums up to that many times it. -/
theorem mul_length_le_sumOf {measure : α → Nat} {least : Nat} {l : List α}
    (least_le : ∀ a ∈ l, least ≤ measure a) : least * l.length ≤ sumOf measure l := by
  induction l with
  | nil => exact Nat.le_refl 0
  | cons a l ih =>
    obtain ⟨first, rest⟩ := List.forall_mem_cons.mp least_le
    have le := ih rest
    rw [sumOf_cons, List.length_cons, Nat.mul_succ]
    omega

/-- A list whose members all measure something is no longer than the sum. -/
theorem length_le_sumOf {measure : α → Nat} (positive : ∀ a, 0 < measure a) (l : List α) :
    l.length ≤ sumOf measure l := by
  have le : 1 * l.length ≤ sumOf measure l := mul_length_le_sumOf fun a _ => positive a
  omega

/-- Lists that stand for members are as long, in a row, as their lengths sum up to. -/
theorem length_flatMap_eq_sumOf {β : Type u} {f : α → List β} {measure : α → Nat}
    (h : ∀ a, (f a).length = measure a) (l : List α) :
    (l.flatMap f).length = sumOf measure l := by
  induction l with
  | nil => rfl
  | cons a l ih => rw [List.flatMap_cons, List.length_append, h, ih, sumOf_cons]

end KeyedRpc
