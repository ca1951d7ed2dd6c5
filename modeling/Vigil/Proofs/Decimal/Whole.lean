import Vigil.Proofs.Decimal.Shortest
import Vigil.Scalar

/-!
# Whole parts of doubles

The conversion of a double to a natural number is exact on what it can represent: it
yields the whole part of a number that is neither negative nor beyond sixty-four bits.
What lies outside goes to the nearer end of this range, and what is no number to zero.
-/

namespace Vigil.Double

open Decimal (zpow_eq_div)
open Float.Model (UnpackedFloat)
open Float.Model.UnpackedFloat

/-- The natural number of sixty-four bits that a double converts to. -/
def wholePart : UnpackedFloat → ℕ
  | .notANumber => 0
  | .infinity .negative => 0
  | .infinity .positive => UInt64.size - 1
  | .zero _ => 0
  | .finite .negative _ _ _ => 0
  | .finite .positive m e _ => min ⌊(m : ℚ) * 2 ^ e⌋₊ (UInt64.size - 1)

theorem mantissa_shift (m : ℕ) (e : ℤ) :
    (ExtendedMantissa.ofMantissaAndAccuracy (m <<< e.toNat) .exact >>> (-e).toNat).mantissa =
      ⌊(m : ℚ) * 2 ^ e⌋₊ := by
  have hrepresents := (Represents.exact (m <<< e.toNat)).shiftRight (-e).toNat
  have hvalue : ((m <<< e.toNat : ℕ) : ℚ) / 2 ^ (-e).toNat = m * 2 ^ e := by
    rw [Nat.shiftLeft_eq, zpow_eq_div, mul_div_assoc']
    push_cast
    rfl
  rw [hvalue] at hrepresents
  have hnonneg : (0 : ℚ) ≤ m * 2 ^ e := by positivity
  exact ((Nat.floor_eq_iff hnonneg).mpr
    ⟨hrepresents.mantissa_le, hrepresents.lt_mantissa_add_one⟩).symm

theorem roundToInt_eq (s : Sign) (m : ℕ) (e : ℤ) :
    roundToInt s m e = s.apply (⌊(m : ℚ) * 2 ^ e⌋₊ : ℕ) := by
  have hle : e - (e.toNat : ℤ) ≤ 0 := by omega
  have hshift : (0 - (e - (e.toNat : ℤ))).toNat = (-e).toNat := by omega
  simp only [roundToInt, decreaseExponent, sub_zero, shiftToExponent_eq _ _ _ hle, hshift,
    mantissa_shift]

theorem toNat_ofNatClamp (n : ℕ) : (UInt64.ofNatClamp n).toNat = min n (UInt64.size - 1) := by
  rcases Nat.lt_or_ge n UInt64.size with hlt | hge
  · rw [UInt64.toNat_ofNatClamp_of_lt hlt, Nat.min_eq_left (by omega)]
  · rw [UInt64.toNat_ofNatClamp_of_le hge, Nat.min_eq_right (by omega)]

theorem floor_eq_wholePart (x : Float) : Scalar.floor x = wholePart x.toModel.unpack := by
  have hclamp : Scalar.floor x =
      min (toInt 0 (UInt64.size - 1) x.toModel.unpack).toNat (UInt64.size - 1) :=
    toNat_ofNatClamp _
  rw [hclamp]
  cases x.toModel.unpack with
  | notANumber => rfl
  | infinity s => cases s <;> rfl
  | zero s => rfl
  | finite s m e hm =>
      rw [toInt, roundToInt_eq]
      cases s with
      | negative =>
          rw [Sign.apply, Int.toNat_neg_natCast, wholePart, Nat.zero_min]
      | positive => rw [Sign.apply, Int.toNat_natCast, wholePart]

theorem unpack_mul_of_isNaN {x : Float} (h : x.isNaN = true) (y : Float) :
    (x * y).toModel.unpack = .notANumber := by
  have hx : x.toModel.unpack = .notANumber := by
    change x.toModel.unpack.isNaN = true at h
    cases hunpack : x.toModel.unpack with
    | notANumber => rfl
    | _ => simp [hunpack, UnpackedFloat.isNaN] at h
  change (Float.Model.pack (UnpackedFloat.mul _ x.toModel.unpack y.toModel.unpack)).unpack = _
  rw [hx, UnpackedFloat.mul]
  rfl

end Vigil.Double
