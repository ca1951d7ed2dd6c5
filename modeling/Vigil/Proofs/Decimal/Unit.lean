import Mathlib
import Vigil.Choice.Evaluation

/-!
# Doubles and the unit interval

Two doubles compare in one way or the other unless one of them is no number.  So a
double that is not in the unit interval is no number, or it lies below or above it;
and one that is in the interval is finite.
-/

namespace Vigil

open Float.Model (UnpackedFloat)
open Float.Model.UnpackedFloat (Sign)

/-- No number of the unit interval: none at all, or one below or above it. -/
def Outside (x : Float) : Prop := x.isNaN = true ∨ x < 0 ∨ 1 < x

namespace Double

theorem swap_compare_sign (s t : Sign) : (compare s t).swap = compare t s := by
  cases s <;> cases t <;> rfl

theorem swap_compare_magnitude (m n : Nat) (e f : Int) :
    ((compare e f).then (compare m n)).swap = (compare f e).then (compare n m) := by
  rw [Ordering.swap_then, Int.compare_swap, Nat.compare_swap]

theorem swap_compare (a b : UnpackedFloat) :
    (a.compare b).map (·.swap) = b.compare a := by
  cases a with
  | notANumber => cases b <;> rfl
  | infinity s =>
      cases b with
      | infinity t => simp [UnpackedFloat.compare, swap_compare_sign]
      | notANumber => rfl
      | zero _ => cases s <;> rfl
      | finite _ _ _ _ => cases s <;> rfl
  | zero s =>
      cases b with
      | infinity t => cases t <;> rfl
      | notANumber => rfl
      | zero _ => rfl
      | finite t _ _ _ => cases t <;> rfl
  | finite s m e hm =>
      cases b with
      | infinity t => cases t <;> rfl
      | notANumber => rfl
      | zero _ => cases s <;> rfl
      | finite t n f hn =>
          cases s <;> cases t <;> simp [UnpackedFloat.compare, swap_compare_magnitude]

theorem compare_eq_none_iff (a b : UnpackedFloat) :
    a.compare b = none ↔ a.isNaN = true ∨ b.isNaN = true := by
  cases a with
  | notANumber => simp [UnpackedFloat.compare, UnpackedFloat.isNaN]
  | infinity s => cases b <;> cases s <;> simp [UnpackedFloat.compare, UnpackedFloat.isNaN]
  | zero s =>
      cases b with
      | infinity t => cases t <;> simp [UnpackedFloat.compare, UnpackedFloat.isNaN]
      | finite t _ _ _ => cases t <;> simp [UnpackedFloat.compare, UnpackedFloat.isNaN]
      | _ => simp [UnpackedFloat.compare, UnpackedFloat.isNaN]
  | finite s m e hm =>
      cases b with
      | infinity t => cases t <;> simp [UnpackedFloat.compare, UnpackedFloat.isNaN]
      | finite t _ _ _ =>
          cases s <;> cases t <;> simp [UnpackedFloat.compare, UnpackedFloat.isNaN]
      | _ => cases s <;> simp [UnpackedFloat.compare, UnpackedFloat.isNaN]

theorem le_iff (x y : Float) :
    x ≤ y ↔ (x.toModel.unpack.compare y.toModel.unpack).any (·.isLE) = true := by
  change decide (x.toModel.unpack.le y.toModel.unpack = true) = true ↔ _
  rw [decide_eq_true_iff]
  rfl

theorem lt_iff (x y : Float) :
    x < y ↔ x.toModel.unpack.compare y.toModel.unpack = some .lt := by
  change decide (x.toModel.unpack.lt y.toModel.unpack = true) = true ↔ _
  rw [decide_eq_true_iff, UnpackedFloat.lt, beq_iff_eq]

theorem not_le_iff (x y : Float) :
    ¬ x ≤ y ↔ x.isNaN = true ∨ y.isNaN = true ∨ y < x := by
  rw [le_iff, lt_iff, ← or_assoc, ← swap_compare x.toModel.unpack]
  change _ ↔ (x.toModel.unpack.isNaN = true ∨ y.toModel.unpack.isNaN = true) ∨ _
  rw [← compare_eq_none_iff]
  cases x.toModel.unpack.compare y.toModel.unpack with
  | none => simp
  | some order => cases order <;> simp

end Double

open Double

theorem inUnit_eq_false_iff (x : Float) : Scalar.inUnit x = false ↔ Outside x := by
  have hzero : (0 : Float).isNaN = false := rfl
  have hone : (1 : Float).isNaN = false := rfl
  rw [← Bool.not_eq_true, Scalar.inUnit_eq_true_iff, Decidable.not_and_iff_not_or_not]
  change ¬ (0 : Float) ≤ x ∨ ¬ x ≤ 1 ↔ _
  rw [not_le_iff, not_le_iff, hzero, hone, Outside]
  simp only [Bool.false_eq_true, false_or]
  constructor
  · rintro ((hnan | hlow) | hnan | hhigh)
    · exact Or.inl hnan
    · exact Or.inr (Or.inl hlow)
    · exact Or.inl hnan
    · exact Or.inr (Or.inr hhigh)
  · rintro (hnan | hlow | hhigh)
    · exact Or.inl (Or.inl hnan)
    · exact Or.inl (Or.inr hlow)
    · exact Or.inr (Or.inr hhigh)

theorem isFinite_of_inUnit {x : Float} (h : Scalar.inUnit x = true) : x.isFinite = true := by
  obtain ⟨hlow, hhigh⟩ := (Scalar.inUnit_eq_true_iff x).mp h
  replace hlow : (0 : Float) ≤ x := hlow
  replace hhigh : x ≤ (1 : Float) := hhigh
  have hzero : (0 : Float).toModel.unpack = .zero .positive := rfl
  have hone : (1 : Float).toModel.unpack =
      .finite .positive (Nat.pow 2 52) (-52) (by decide) := rfl
  rw [le_iff, hzero] at hlow
  rw [le_iff, hone] at hhigh
  change x.toModel.unpack.isFinite = true
  cases hx : x.toModel.unpack with
  | notANumber => simp [hx, UnpackedFloat.compare] at hlow
  | infinity s => cases s <;> simp [hx, UnpackedFloat.compare] at hlow hhigh
  | zero s => rfl
  | finite s m e hm => rfl

/-- A score of doubles counts unless it is outside the unit interval. -/
theorem acceptsScore_eq_false_iff (x : Float) :
    Constraint.acceptsScore x = false ↔ Outside x := by
  rw [← inUnit_eq_false_iff, Constraint.acceptsScore]
  cases h : Scalar.inUnit x with
  | false => simp
  | true =>
      have hfinite : Scalar.isFinite x = true := isFinite_of_inUnit h
      simp [hfinite]

end Vigil
