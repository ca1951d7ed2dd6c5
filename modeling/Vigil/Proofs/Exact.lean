import Mathlib.Algebra.BigOperators.Group.List.Basic
import Mathlib.Analysis.SpecialFunctions.Log.Basic
import Vigil.Scalar

/-!
# Exact numbers

Over the real numbers the statistics are what their formulas say: sums are sums, the
logarithm is the natural one, and every number is finite.  What is proved of them here
is proved of the formulas, without the rounding of doubles.  For sums, means and
comparisons it is enough that the numbers stand for exact values.
-/

namespace Vigil

noncomputable instance : Scalar ℝ where
  decidableLT := inferInstance
  decidableLE := inferInstance
  log := Real.log
  floor := Nat.floor
  isFinite _ := true

namespace Scalar

@[simp] theorem zero_real : (zero : ℝ) = 0 := Nat.cast_zero

@[simp] theorem one_real : (one : ℝ) = 1 := Nat.cast_one

@[simp] theorem isFinite_real (x : ℝ) : isFinite x = true := rfl

@[simp] theorem log_real (x : ℝ) : log x = Real.log x := rfl

theorem sum_real (xs : List ℝ) : sum xs = xs.sum := by
  rw [sum, zero_real, List.sum_eq_foldl]

theorem clampUnit_of_mem {x : ℝ} (h₀ : 0 ≤ x) (h₁ : x ≤ 1) : clampUnit x = x := by
  rw [clampUnit, zero_real, one_real, if_neg h₀.not_gt, if_neg h₁.not_gt]

/-- Numbers that stand for exact values.  Their sums, quotients and comparisons are those of
the values; products, logarithms and whole parts may be anything. -/
structure Exact {α : Type} [Scalar α] (value : α → ℝ) : Prop where
  injective : Function.Injective value
  natCast : ∀ n : ℕ, value (n : α) = n
  add : ∀ x y, value (x + y) = value x + value y
  div : ∀ x y, value (x / y) = value x / value y
  lt_iff : ∀ x y, x < y ↔ value x < value y
  le_iff : ∀ x y, x ≤ y ↔ value x ≤ value y

theorem exact_real : Exact fun x : ℝ => x where
  injective := fun _ _ h => h
  natCast _ := rfl
  add _ _ := rfl
  div _ _ := rfl
  lt_iff _ _ := Iff.rfl
  le_iff _ _ := Iff.rfl

namespace Exact

variable {α : Type} [Scalar α] {value : α → ℝ} (exact : Exact value)

include exact

theorem zero : value Scalar.zero = 0 := by
  rw [Scalar.zero, exact.natCast, Nat.cast_zero]

theorem max (x y : α) : value (Scalar.max x y) = Max.max (value x) (value y) := by
  unfold Scalar.max
  split_ifs with hlt
  · rw [max_eq_right ((exact.lt_iff x y).mp hlt).le]
  · rw [max_eq_left (not_lt.mp fun h => hlt ((exact.lt_iff x y).mpr h))]

theorem sum (xs : List α) : value (Scalar.sum xs) = (xs.map value).sum := by
  induction xs using List.reverseRecOn with
  | nil => exact exact.zero
  | append_singleton xs x ih => simp [sum_append_singleton, exact.add, ih]

theorem sum_perm {xs ys : List α} (h : xs.Perm ys) : Scalar.sum xs = Scalar.sum ys := by
  apply exact.injective
  rw [exact.sum, exact.sum, (h.map value).sum_eq]

end Exact

end Scalar

end Vigil
