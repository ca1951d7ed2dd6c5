import Vigil.Decimal.Layout
import Vigil.Proofs.Decimal.Rounding

/-!
# Doubles and their bits

A double is packed into one bit for the sign, eleven for the exponent and fifty-two for
the mantissa without its leading bit.  What is read off the bits of a finite double is
its mantissa and its exponent, and packs into the same double again.
-/

namespace Vigil.Double

open Decimal (Binary isNegative leadingBit)
open Float.Model (Format UnpackedFloat)
open Float.Model.UnpackedFloat

theorem toNat_packComponents (s : Sign) (e : BitVec 11) (m : BitVec 52) :
    (packComponents Format.binary64 s e m).toNat =
      s.toBitVec.toNat * 2 ^ 63 + e.toNat * 2 ^ 52 + m.toNat := by
  have he : e.toNat < 2 ^ 11 := e.isLt
  have hm : m.toNat < 2 ^ 52 := m.isLt
  change (s.toBitVec ++ e ++ m).toNat = _
  rw [BitVec.toNat_append, BitVec.toNat_append, ← Nat.shiftLeft_add_eq_or_of_lt he,
    ← Nat.shiftLeft_add_eq_or_of_lt hm, Nat.shiftLeft_eq, Nat.shiftLeft_eq]
  omega

/-- The bit of a sign. -/
def signBit : Sign → ℕ
  | .negative => 1
  | .positive => 0

theorem toNat_toBitVec (s : Sign) : s.toBitVec.toNat = signBit s := by
  cases s <;> rfl

/-- The field that holds the exponent: zero for the doubles without a leading bit. -/
def exponentField (m : ℕ) (e : ℤ) : ℕ := if 2 ^ 52 ≤ m then (e + 1075).toNat else 0

section Pack

variable {s : Sign} {m : ℕ} {e : ℤ}

theorem log2_add_one_eq_iff (h : Canonical m e) : m.log2 + 1 = 53 ↔ 2 ^ 52 ≤ m := by
  have hlt : m.log2 < 53 := (Nat.log2_lt h.pos.ne').mpr h.lt
  rw [← Nat.le_log2 h.pos.ne']
  omega

theorem exponentField_lt (m : ℕ) {e : ℤ} (hmax : e ≤ 971) : exponentField m e < 2047 := by
  unfold exponentField
  split <;> omega

theorem pack_finite (h : Canonical m e) (hmax : e ≤ 971) :
    UnpackedFloat.pack Format.binary64 (.finite s m e h.pos) =
      packComponents Format.binary64 s (BitVec.ofNat 11 (exponentField m e))
        (BitVec.ofNat 52 m) := by
  have hbiased : (e + (Format.binary64.exponentBias : ℕ) +
      (Format.binary64.mantissaBitsWithoutImplicit : ℕ)).toNat = (e + 1075).toNat := by
    change (e + 1023 + 52).toNat = _
    congr 1
    omega
  have hfits : ¬ 2 ^ Format.binary64.exponentBits ≤ (e + 1075).toNat + 1 := by
    change ¬ 2 ^ 11 ≤ _
    omega
  simp only [UnpackedFloat.pack, hbiased, if_neg hfits]
  change (if m.log2 + 1 = 53 then _ else _) = _
  unfold exponentField
  by_cases hm : 2 ^ 52 ≤ m
  · rw [if_pos ((log2_add_one_eq_iff h).mpr hm), if_pos hm]
  · rw [if_neg (mt (log2_add_one_eq_iff h).mp hm), if_neg hm]

theorem toNat_pack_finite (h : Canonical m e) (hmax : e ≤ 971) :
    (Float.Model.pack (.finite s m e h.pos)).toBits.toNat =
      signBit s * 2 ^ 63 + exponentField m e * 2 ^ 52 + m % 2 ^ 52 := by
  have hfield := exponentField_lt m hmax
  change (UnpackedFloat.pack Format.binary64 _).toNat = _
  rw [pack_finite h hmax, toNat_packComponents, toNat_toBitVec, BitVec.toNat_ofNat,
    BitVec.toNat_ofNat, Nat.mod_eq_of_lt (by omega : exponentField m e < 2 ^ 11)]

theorem toNat_leadingBit_append (m : BitVec 52) : (1#1 ++ m).toNat = 2 ^ 52 + m.toNat := by
  rw [BitVec.toNat_append, ← Nat.shiftLeft_add_eq_or_of_lt m.isLt]
  rfl

theorem unpack_packComponents (e : BitVec 11) (m : BitVec 52) :
    unpack Format.binary64 (packComponents Format.binary64 s e m) =
      if e = -1#11 then if m = 0#52 then .infinity s else .notANumber
      else if e = 0#11 then
        if h : m = 0#52 then .zero s
        else .finite s m.toNat (-1074) (by simpa [BitVec.toNat_pos, BitVec.pos_iff_ne_zero])
      else .finite s (1#1 ++ m).toNat (e.toNat - 1075)
        (by rw [toNat_leadingBit_append]; omega) := by
  have hmantissa : unpackMantissa (packComponents Format.binary64 s e m) = m :=
    unpackMantissa_packComponents
  have hexponent : unpackExponent (packComponents Format.binary64 s e m) = e :=
    unpackExponent_packComponents
  have hsign : unpackSign (packComponents Format.binary64 s e m) = s.toBitVec :=
    @unpackSign_packComponents Format.binary64 s e m
  simp only [unpack, hsign, Sign.ofBitVec_toBitVec, hmantissa, hexponent]
  split
  · rfl
  · split
    · rename_i hzero
      split
      · rfl
      · subst hzero
        rfl
    · rfl

/-- A double unpacks to the mantissa and the exponent that it was packed from. -/
theorem unpack_pack_finite (h : Canonical m e) (hmax : e ≤ 971) :
    (Float.Model.pack (.finite s m e h.pos)).unpack = .finite s m e h.pos := by
  have hfield := exponentField_lt m hmax
  have hlt := h.lt
  have hleast := h.least
  change unpack Format.binary64 (UnpackedFloat.pack Format.binary64 _) = _
  rw [pack_finite h hmax, unpack_packComponents]
  have hnumber : BitVec.ofNat 11 (exponentField m e) ≠ -1#11 := by
    rw [Ne, ← BitVec.toNat_inj, BitVec.toNat_ofNat, Nat.mod_eq_of_lt (by omega)]
    exact Nat.ne_of_lt hfield
  rw [if_neg hnumber]
  by_cases hm : 2 ^ 52 ≤ m
  · have hfieldeq : exponentField m e = (e + 1075).toNat := if_pos hm
    have hexponent : BitVec.ofNat 11 (exponentField m e) ≠ 0#11 := by
      rw [Ne, ← BitVec.toNat_inj, BitVec.toNat_ofNat, Nat.mod_eq_of_lt (by omega), hfieldeq]
      change (e + 1075).toNat ≠ 0
      omega
    rw [if_neg hexponent]
    congr 1
    · rw [toNat_leadingBit_append, BitVec.toNat_ofNat]
      omega
    · rw [BitVec.toNat_ofNat, Nat.mod_eq_of_lt (by omega), hfieldeq]
      omega
  · have hfieldeq : exponentField m e = 0 := if_neg hm
    have hmod : m % 2 ^ 52 = m := Nat.mod_eq_of_lt (Nat.not_le.mp hm)
    have hmantissa : BitVec.ofNat 52 m ≠ 0#52 := by
      rw [Ne, ← BitVec.toNat_inj, BitVec.toNat_ofNat, hmod]
      exact h.pos.ne'
    rw [hfieldeq, if_pos rfl, dif_neg hmantissa]
    have he : e = -1074 := h.normal.resolve_right hm
    congr 1
    exact he.symm

end Pack

section OfFloat

variable {x : Float}

/-- The sign of a double. -/
def sign (x : Float) : Sign := if isNegative x then .negative else .positive

/-- The exponent field of a double. -/
def field (x : Float) : ℕ := x.toBits.toNat / leadingBit % 2048

theorem bits_eq (x : Float) : x.toBits.toNat =
    signBit (sign x) * 2 ^ 63 + field x * 2 ^ 52 + x.toBits.toNat % leadingBit := by
  have hlt : x.toBits.toNat < 2 ^ 64 := x.toBits.toNat_lt
  have hsign : signBit (sign x) = x.toBits.toNat / 2 ^ 63 := by
    unfold sign isNegative
    split <;> rename_i h <;> simp only [decide_eq_true_eq] at h
    · change 1 = _
      omega
    · change 0 = _
      omega
  have hbit : leadingBit = 2 ^ 52 := rfl
  rw [hsign, field, hbit]
  omega

theorem toNat_unpackExponent (x : Float) :
    (@unpackExponent Format.binary64 x.toModel.toBits.toBitVec).toNat = field x := by
  rw [unpackExponent, BitVec.toNat_cast, BitVec.extractLsb_toNat, Nat.shiftRight_eq_div_pow]
  rfl

theorem field_lt_of_isFinite (h : x.isFinite = true) : field x < 2047 := by
  have hlt : field x < 2048 := Nat.mod_lt _ (by decide)
  by_contra hfield
  have hones : @unpackExponent Format.binary64 x.toModel.toBits.toBitVec = -1#11 := by
    rw [← BitVec.toNat_inj, toNat_unpackExponent]
    change field x = 2047
    omega
  change (unpack Format.binary64 x.toModel.toBits.toBitVec).isFinite = true at h
  simp only [unpack, hones] at h
  split at h <;> rename_i hcond
  · split at h <;> cases h
  · exact hcond trivial

theorem ofFloat_eq (x : Float) :
    ((Binary.ofFloat x).mantissa = if field x = 0 then x.toBits.toNat % leadingBit
      else leadingBit + x.toBits.toNat % leadingBit) ∧
    ((Binary.ofFloat x).exponent = if field x = 0 then -1074 else (field x : ℤ) - 1075) := by
  unfold Binary.ofFloat
  change ((if field x = 0 then _ else _ : Binary).mantissa = _) ∧
    (if field x = 0 then _ else _ : Binary).exponent = _
  split <;> exact ⟨rfl, rfl⟩

theorem canonical_ofFloat (hx : x.isFinite = true) (hm : 0 < (Binary.ofFloat x).mantissa) :
    Canonical (Binary.ofFloat x).mantissa (Binary.ofFloat x).exponent ∧
      (Binary.ofFloat x).exponent ≤ 971 := by
  have hfield := field_lt_of_isFinite hx
  have hfraction : x.toBits.toNat % leadingBit < leadingBit := Nat.mod_lt _ (by decide)
  have hbit : leadingBit = 2 ^ 52 := rfl
  obtain ⟨hmantissa, hexponent⟩ := ofFloat_eq x
  split at hmantissa <;> rename_i hzero
  · rw [if_pos hzero] at hexponent
    exact ⟨⟨hm, by omega, by omega, by omega⟩, by omega⟩
  · rw [if_neg hzero] at hexponent
    exact ⟨⟨hm, by omega, by omega, by omega⟩, by omega⟩

theorem exponentField_ofFloat (x : Float) :
    exponentField (Binary.ofFloat x).mantissa (Binary.ofFloat x).exponent = field x := by
  have hfraction : x.toBits.toNat % leadingBit < leadingBit := Nat.mod_lt _ (by decide)
  have hbit : leadingBit = 2 ^ 52 := rfl
  obtain ⟨hmantissa, hexponent⟩ := ofFloat_eq x
  rw [exponentField, hmantissa, hexponent]
  split <;> split <;> omega

/-- What is read off the bits of a double packs into this double. -/
theorem pack_ofFloat (hx : x.isFinite = true) (hm : 0 < (Binary.ofFloat x).mantissa) :
    Float.ofModel (.pack (.finite (sign x) (Binary.ofFloat x).mantissa (Binary.ofFloat x).exponent
      hm)) = x := by
  obtain ⟨hcanonical, hmax⟩ := canonical_ofFloat hx hm
  have hmod : (Binary.ofFloat x).mantissa % 2 ^ 52 = x.toBits.toNat % leadingBit := by
    have hfraction : x.toBits.toNat % leadingBit < leadingBit := Nat.mod_lt _ (by decide)
    have hbit : leadingBit = 2 ^ 52 := rfl
    rw [(ofFloat_eq x).1]
    split <;> omega
  have hbits := toNat_pack_finite (s := sign x) hcanonical hmax
  rw [exponentField_ofFloat, hmod] at hbits
  exact Float.toBits_inj.mp (UInt64.toNat_inj.mp (hbits.trans (bits_eq x).symm))

end OfFloat

end Vigil.Double
