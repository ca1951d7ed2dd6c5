import Vigil.Decimal.Nearest
import Vigil.Proofs.Decimal.Packing

/-!
# The double nearest to a decimal

A decimal with few digits and a small exponent is a quotient or a product of two doubles,
and any other one is that of two natural numbers.  Either way it is the double that the
decimal reads back as.
-/

namespace Vigil.Double

open Float.Model (Format UnpackedFloat)
open Float.Model.UnpackedFloat

/-! ## Whole numbers -/

/-- A double reads back as itself. -/
theorem readsBack_self (m : ℕ) (e : ℤ) : ReadsBack (m * 2 ^ e) m e := by
  have hpos : (0 : ℚ) < 2 ^ e := by positivity
  have hmargin : 0 ≤ marginBelow m e := by
    unfold marginBelow
    split <;> norm_num
  refine ⟨?_, ?_, fun _ => ⟨?_, ?_⟩⟩
  · exact mul_le_mul_of_nonneg_right (by linarith) hpos.le
  · exact mul_le_mul_of_nonneg_right (by linarith) hpos.le
  · exact mul_lt_mul_of_pos_right (by linarith) hpos
  · exact mul_lt_mul_of_pos_right (by linarith) hpos

theorem roundWithAccuracy_exact {m : ℕ} {e : ℤ} (s : Sign) (h : Canonical m e) :
    roundWithAccuracy Format.binary64 s m e .exact = .finite s m e h.pos := by
  have hpos : (2 : ℚ) ^ e ≠ 0 := by positivity
  refine roundWithAccuracy_eq s (x := m * 2 ^ e) ?_ ?_ h (readsBack_self m e)
  · rw [mul_div_cancel_right₀ _ hpos]
    exact Represents.exact m
  · rcases h.normal with rfl | hnormal
    · exact .inr le_rfl
    · exact .inl hnormal

/-- The mantissa of a natural number, as a double with a leading bit has it. -/
def mantissaOf (n : ℕ) : ℕ := n * 2 ^ (52 - n.log2)

/-- The exponent that goes with this mantissa. -/
def exponentOf (n : ℕ) : ℤ := n.log2 - 52

section Whole

variable {n : ℕ}

theorem mantissaOf_bounds (hpos : 0 < n) (hlt : n < 2 ^ 53) :
    2 ^ 52 ≤ mantissaOf n ∧ mantissaOf n < 2 ^ 53 := by
  have hlog : n.log2 < 53 := (Nat.log2_lt hpos.ne').mpr hlt
  have hsplit : n.log2 + (52 - n.log2) = 52 := by omega
  have hsplit' : n.log2 + 1 + (52 - n.log2) = 53 := by omega
  constructor
  · calc 2 ^ 52 = 2 ^ n.log2 * 2 ^ (52 - n.log2) := by rw [← Nat.pow_add, hsplit]
      _ ≤ mantissaOf n := Nat.mul_le_mul_right _ (Nat.log2_self_le hpos.ne')
  · calc mantissaOf n < 2 ^ (n.log2 + 1) * 2 ^ (52 - n.log2) :=
          Nat.mul_lt_mul_of_pos_right Nat.lt_log2_self (by positivity)
      _ = 2 ^ 53 := by rw [← Nat.pow_add, hsplit']

theorem canonical_whole (hpos : 0 < n) (hlt : n < 2 ^ 53) (k : ℕ) :
    Canonical (mantissaOf n) (exponentOf n + k) := by
  obtain ⟨hle, hlt'⟩ := mantissaOf_bounds hpos hlt
  refine ⟨by omega, hlt', ?_, .inr hle⟩
  unfold exponentOf
  omega

theorem exponentOf_le (hpos : 0 < n) (hlt : n < 2 ^ 53) : exponentOf n ≤ 0 := by
  have hlog : n.log2 < 53 := (Nat.log2_lt hpos.ne').mpr hlt
  unfold exponentOf
  omega

theorem mantissaOf_mul (hpos : 0 < n) (hlt : n < 2 ^ 53) (k : ℕ) :
    (mantissaOf n : ℚ) * 2 ^ (exponentOf n + k) = n * 2 ^ k := by
  have hlog : n.log2 < 53 := (Nat.log2_lt hpos.ne').mpr hlt
  have hshift : (2 : ℚ) ^ (52 - n.log2) * 2 ^ exponentOf n = 1 := by
    have hsum : exponentOf n + (52 - n.log2 : ℕ) = 0 := by
      unfold exponentOf
      omega
    rw [← two_zpow_add_nat, hsum, zpow_zero]
  rw [two_zpow_add_nat, mantissaOf]
  push_cast
  linear_combination (n : ℚ) * 2 ^ k * hshift

theorem unpack_toFloat (hpos : 0 < n) (hlt : n < 2 ^ 53) :
    n.toUInt64.toFloat.toModel.unpack = .finite .positive (mantissaOf n) (exponentOf n)
      (canonical_whole hpos hlt 0).pos := by
  have hcanonical : Canonical (mantissaOf n) (exponentOf n) := by
    simpa using canonical_whole hpos hlt 0
  have hle := exponentOf_le hpos hlt
  have htoNat : n.toUInt64.toNat = n := by
    change n % 2 ^ 64 = n
    omega
  have hround : UnpackedFloat.ofUInt64 Format.binary64 n.toUInt64 =
      .finite .positive (mantissaOf n) (exponentOf n) hcanonical.pos := by
    have htarget : Format.binary64.targetExponent (Float.Model.totalExponent n 0) =
        exponentOf n := by
      rw [targetExponent_eq, Float.Model.totalExponent]
      unfold exponentOf
      omega
    have hshift : (0 - exponentOf n).toNat = 52 - n.log2 := by
      unfold exponentOf
      omega
    have hdecrease : decreaseExponent n 0 (exponentOf n) = (mantissaOf n, exponentOf n) := by
      simp only [decreaseExponent, hshift, Nat.shiftLeft_eq, mantissaOf, Prod.mk.injEq, true_and]
      omega
    have hcompare : compare (n : ℤ) 0 = .gt := Int.compare_eq_gt.mpr (by omega)
    simp only [UnpackedFloat.ofUInt64, UnpackedFloat.ofNat, UnpackedFloat.ofInt, htoNat,
      UnpackedFloat.normalize, hcompare, UnpackedFloat.round, Int.toNat_natCast, htarget,
      hdecrease]
    exact roundWithAccuracy_exact .positive hcanonical
  change (Float.Model.pack (UnpackedFloat.ofUInt64 Format.binary64 n.toUInt64)).unpack = _
  rw [hround]
  exact unpack_pack_finite hcanonical (by omega)

end Whole

/-! ## Powers of ten -/

theorem mantissaOf_pos {n : ℕ} (h : 0 < n) : 0 < mantissaOf n :=
  Nat.mul_pos h (by positivity)

/-- The powers of ten in the table are what they should be. -/
theorem powersOfTen_eq : ∀ k : Fin 23, Float.exactlyRepresentablePowersOfTen[k] =
    .ofModel (.pack (.finite .positive (mantissaOf (5 ^ k.val)) (exponentOf (5 ^ k.val) + k.val)
      (mantissaOf_pos (Nat.pow_pos (by decide))))) := by
  decide +kernel

theorem five_pow_lt {k : ℕ} (hk : k ≤ 22) : 5 ^ k < 2 ^ 53 :=
  (Nat.pow_le_pow_right (by decide) hk).trans_lt (by decide)

theorem unpack_powerOfTen {k : ℕ} (hk : k ≤ 22)
    (h : k < Float.exactlyRepresentablePowersOfTen.size) :
    Float.exactlyRepresentablePowersOfTen[k].toModel.unpack =
      .finite .positive (mantissaOf (5 ^ k)) (exponentOf (5 ^ k) + k)
        (mantissaOf_pos (Nat.pow_pos (by decide))) := by
  have hpos : 0 < 5 ^ k := Nat.pow_pos (by decide)
  have hle := exponentOf_le hpos (five_pow_lt hk)
  have htable := powersOfTen_eq ⟨k, by omega⟩
  change Float.exactlyRepresentablePowersOfTen[k] = _ at htable
  rw [htable]
  exact unpack_pack_finite (canonical_whole hpos (five_pow_lt hk) k) (by omega)

theorem ten_pow_eq (k : ℕ) : (10 : ℚ) ^ k = ((5 ^ k : ℕ) : ℚ) * 2 ^ k := by
  push_cast
  rw [← mul_pow]
  norm_num

/-! ## Decimals -/

section Decimals

variable {d k m : ℕ} {e : ℤ}

theorem ofScientific_of_readsBack (hd : 0 < d) (hk : 0 < k) (hsmall : k ≤ d.log2 + 2048)
    (hcanonical : Canonical m e) (hreads : ReadsBack (d / 10 ^ k) m e) :
    Float.ofScientific d true k = .ofModel (.pack (.finite .positive m e hcanonical.pos)) := by
  have hten : (10 : ℚ) ^ k ≠ 0 := by positivity
  unfold Float.ofScientific
  split
  · rename_i hfast
    obtain ⟨hlt, hk'⟩ := hfast
    simp only [if_true]
    change Float.ofModel (.pack (UnpackedFloat.div Format.binary64 _ _)) = _
    rw [unpack_toFloat hd hlt, unpack_powerOfTen hk']
    congr 2
    refine div_eq_of_readsBack _ _ ?_ hcanonical hreads
    have hmantissa := mantissaOf_mul hd hlt 0
    rw [Nat.cast_zero, add_zero, pow_zero, mul_one] at hmantissa
    rw [mantissaOf_mul (Nat.pow_pos (by decide)) (five_pow_lt hk'), hmantissa, ← ten_pow_eq,
      div_mul_cancel₀ _ hten]
  · simp only [if_true]
    have hexponent : Int.negOfNat k = -(k : ℤ) := Int.negOfNat_eq
    have htooGreat : ¬ -(k : ℤ) > 2 ^ Format.binary64.exponentBits := by
      change ¬ -(k : ℤ) > 2 ^ 11
      omega
    have htooSmall : ¬ -(k : ℤ) < -((2 ^ Format.binary64.exponentBits : ℤ) + d.log2) := by
      change ¬ -(k : ℤ) < -(2 ^ 11 + (d.log2 : ℤ))
      omega
    have hnegative : ¬ 0 ≤ -(k : ℤ) := by omega
    have hquotient : UnpackedFloat.ofScientific Format.binary64 d (Int.negOfNat k) =
        .finite .positive m e hcanonical.pos := by
      rw [hexponent]
      simp only [UnpackedFloat.ofScientific, hd.ne', dite_false, if_neg htooGreat,
        if_neg htooSmall, if_neg hnegative, neg_neg, Int.toNat_natCast]
      refine div_eq_of_readsBack _ _ ?_ hcanonical hreads
      push_cast
      rw [mul_one, mul_one, div_mul_cancel₀ _ hten]
    rw [Float.Model.ofScientific, hquotient]

/-- A product of doubles with enough digits is the double that the exact product reads back
as. -/
theorem mul_eq_of_readsBack (s₁ s₂ : Sign) {m₁ m₂ : ℕ} {e₁ e₂ : ℤ} (h₁ : 0 < m₁) (h₂ : 0 < m₂)
    (hbits : 2 ^ 52 ≤ m₁ * m₂) {x : ℚ} (hx : m₁ * 2 ^ e₁ * (m₂ * 2 ^ e₂) = x)
    (hcanonical : Canonical m e) (hreads : ReadsBack x m e) :
    UnpackedFloat.mul Format.binary64 (.finite s₁ m₁ e₁ h₁) (.finite s₂ m₂ e₂ h₂) =
      .finite (s₁ * s₂) m e hcanonical.pos := by
  have hrep : Represents (.ofMantissaAndAccuracy (m₁ * m₂) .exact) (x / 2 ^ (e₁ + e₂)) := by
    have hvalue : x / 2 ^ (e₁ + e₂) = (m₁ * m₂ : ℕ) := by
      rw [← hx, zpow_add₀ two_ne_zero, div_eq_iff (by positivity)]
      push_cast
      ring
    rw [hvalue]
    exact Represents.exact _
  exact roundWithAccuracy_eq _ hrep (.inl hbits) hcanonical hreads

theorem ofScientific_of_readsBack_whole (hd : 0 < d) (hsmall : k ≤ 2048)
    (hcanonical : Canonical m e) (hreads : ReadsBack (d * 10 ^ k) m e) :
    Float.ofScientific d false k = .ofModel (.pack (.finite .positive m e hcanonical.pos)) := by
  unfold Float.ofScientific
  split
  · rename_i hfast
    obtain ⟨hlt, hk⟩ := hfast
    have hfive : 0 < 5 ^ k := Nat.pow_pos (by decide)
    simp only [Bool.false_eq_true, if_false]
    change Float.ofModel (.pack (UnpackedFloat.mul Format.binary64 _ _)) = _
    rw [unpack_toFloat hd hlt, unpack_powerOfTen hk]
    congr 2
    refine mul_eq_of_readsBack _ _ _ _ ?_ ?_ hcanonical hreads
    · exact (mantissaOf_bounds hd hlt).1.trans
        (Nat.le_mul_of_pos_right _ (mantissaOf_pos hfive))
    · have hmantissa := mantissaOf_mul hd hlt 0
      rw [Nat.cast_zero, add_zero, pow_zero, mul_one] at hmantissa
      rw [mantissaOf_mul hfive (five_pow_lt hk), hmantissa, ← ten_pow_eq]
  · simp only [Bool.false_eq_true, if_false]
    have htooGreat : ¬ Int.ofNat k > 2 ^ Format.binary64.exponentBits := by
      change ¬ (k : ℤ) > 2 ^ 11
      omega
    have htooSmall : ¬ Int.ofNat k < -((2 ^ Format.binary64.exponentBits : ℤ) + d.log2) := by
      change ¬ (k : ℤ) < -(2 ^ 11 + (d.log2 : ℤ))
      omega
    have hnonneg : 0 ≤ Int.ofNat k := Int.natCast_nonneg k
    have hproduct : UnpackedFloat.ofScientific Format.binary64 d (Int.ofNat k) =
        .finite .positive m e hcanonical.pos := by
      simp only [UnpackedFloat.ofScientific, hd.ne', dite_false, if_neg htooGreat,
        if_neg htooSmall, if_pos hnonneg]
      refine mul_eq_of_readsBack _ _ _ _ ?_ ?_ hcanonical hreads
      · change 2 ^ 52 ≤ d <<< 53 * 10 ^ k
        rw [Nat.shiftLeft_eq]
        calc 2 ^ 52 ≤ 2 ^ 53 := by decide
          _ ≤ d * 2 ^ 53 := Nat.le_mul_of_pos_left _ hd
          _ ≤ d * 2 ^ 53 * 10 ^ k := Nat.le_mul_of_pos_right _ (Nat.pow_pos (by decide))
      · change ((d <<< 53 : ℕ) : ℚ) * 2 ^ (-53 : ℤ) * (((10 ^ k : ℕ) : ℚ) * 2 ^ (0 : ℤ)) = _
        have hshift : (2 : ℚ) ^ 53 * 2 ^ (-53 : ℤ) = 1 := by norm_num
        rw [Nat.shiftLeft_eq, zpow_zero]
        push_cast
        linear_combination (d : ℚ) * 10 ^ k * hshift
    rw [Float.Model.ofScientific, hproduct]

/-- The count of the digits of a number. -/
def figuresCount (d : ℕ) : ℕ := (Nat.toDigits 10 d).length

theorem lt_ten_pow_figuresCount (d : ℕ) : d < 10 ^ figuresCount d :=
  (Nat.length_toDigits_le_iff (by decide) Nat.length_toDigits_pos).mp le_rfl

theorem ten_pow_le (hd : 0 < d) : 10 ^ (figuresCount d - 1) ≤ d := by
  rcases Nat.eq_zero_or_pos (figuresCount d - 1) with hzero | hpos
  · rw [hzero]
    exact hd
  · by_contra hlt
    have := (Nat.length_toDigits_le_iff (by decide) hpos).mpr (not_le.mp hlt)
    change figuresCount d ≤ _ at this
    omega

theorem figuresCount_le_log2 (hd : 0 < d) : figuresCount d ≤ d.log2 + 1 := by
  have hle : 2 ^ (figuresCount d - 1) ≤ d :=
    (Nat.pow_le_pow_left (by decide) _).trans (ten_pow_le hd)
  have := (Nat.le_log2 hd.ne').mpr hle
  omega

theorem two_zpow_lt_ten_pow {f : ℤ} (hf : f < 3 * 360) : (2 : ℚ) ^ f < 10 ^ 360 := by
  calc (2 : ℚ) ^ f < 2 ^ ((3 * 360 : ℕ) : ℤ) := zpow_lt_zpow_right₀ (by norm_num) hf
    _ = (2 ^ 3) ^ 360 := by rw [zpow_natCast, pow_mul]
    _ ≤ 10 ^ 360 := pow_le_pow_left₀ (by norm_num) (by norm_num) 360

/-- What reads back as a finite double lies in the range of doubles. -/
theorem ReadsBack.bounds {x : ℚ} (h : ReadsBack x m e) (hcanonical : Canonical m e)
    (hmax : e ≤ 971) : (10 : ℚ) ^ (-360 : ℤ) < x ∧ x < (10 : ℚ) ^ (360 : ℤ) := by
  have hpos : (0 : ℚ) < 2 ^ e := by positivity
  constructor
  · have hmargin := marginBelow_le m e
    have hone : (1 : ℚ) ≤ m := by exact_mod_cast hcanonical.pos
    have hhalf : (1 : ℚ) / 2 * 2 ^ e = (2 ^ (1 - e))⁻¹ := by
      rw [← zpow_neg, neg_sub, zpow_sub_one₀ two_ne_zero]
      ring
    have hlt : (2 : ℚ) ^ (1 - e) < 10 ^ 360 :=
      two_zpow_lt_ten_pow (by have := hcanonical.least; omega)
    calc (10 : ℚ) ^ (-360 : ℤ) = (10 ^ 360)⁻¹ := by rw [zpow_neg]; rfl
      _ < (2 ^ (1 - e))⁻¹ := inv_strictAnti₀ (by positivity) hlt
      _ = 1 / 2 * 2 ^ e := hhalf.symm
      _ ≤ (m - marginBelow m e) * 2 ^ e := mul_le_mul_of_nonneg_right (by linarith) hpos.le
      _ ≤ x := h.lower
  · have hlt : (m : ℚ) + 1 ≤ 2 ^ 53 := by exact_mod_cast hcanonical.lt
    calc x ≤ (m + 1 / 2) * 2 ^ e := h.upper
      _ ≤ 2 ^ 53 * 2 ^ e := mul_le_mul_of_nonneg_right (by linarith) hpos.le
      _ = 2 ^ (e + (53 : ℕ)) := (two_zpow_add_nat e 53).symm
      _ < 10 ^ 360 := two_zpow_lt_ten_pow (by push_cast; omega)

/-- The nearest double to a decimal is the double that it reads back as. -/
theorem nearest_of_readsBack (hd : 0 < d) {f : ℤ} (hcanonical : Canonical m e)
    (hmax : e ≤ 971) (hreads : ReadsBack (d * 10 ^ f) m e) :
    Decimal.nearest d f = .ofModel (.pack (.finite .positive m e hcanonical.pos)) := by
  obtain ⟨hlower, hupper⟩ := hreads.bounds hcanonical hmax
  have hten : (0 : ℚ) < 10 ^ f := by positivity
  rw [← div_lt_iff₀ hten, ← zpow_sub₀ (by norm_num)] at hlower
  rw [← lt_div_iff₀ hten, ← zpow_sub₀ (by norm_num)] at hupper
  have hcount : 0 < figuresCount d := Nat.length_toDigits_pos
  have habove : (d : ℚ) < 10 ^ (figuresCount d : ℤ) := by
    exact_mod_cast lt_ten_pow_figuresCount d
  have hbelow : (10 : ℚ) ^ ((figuresCount d : ℤ) - 1) ≤ d := by
    have hle := ten_pow_le hd
    have hcast : ((figuresCount d : ℤ) - 1) = (figuresCount d - 1 : ℕ) := by omega
    rw [hcast]
    exact_mod_cast hle
  have hleast : -360 - f < figuresCount d :=
    (zpow_lt_zpow_iff_right₀ (by norm_num : (1 : ℚ) < 10)).mp (hlower.trans habove)
  have hgreatest : (figuresCount d : ℤ) - 1 < 360 - f :=
    (zpow_lt_zpow_iff_right₀ (by norm_num : (1 : ℚ) < 10)).mp (hbelow.trans_lt hupper)
  have hlog := figuresCount_le_log2 hd
  have hscientific : Float.ofScientific d (decide (f < 0)) f.natAbs =
      .ofModel (.pack (.finite .positive m e hcanonical.pos)) := by
    by_cases hneg : f < 0
    · obtain ⟨k, rfl⟩ : ∃ k : ℕ, f = -(k : ℤ) := ⟨f.natAbs, by omega⟩
      rw [decide_eq_true hneg, Int.natAbs_neg, Int.natAbs_natCast]
      refine ofScientific_of_readsBack hd (by omega) (by omega) hcanonical ?_
      rwa [zpow_neg, zpow_natCast, ← div_eq_mul_inv] at hreads
    · obtain ⟨k, rfl⟩ : ∃ k : ℕ, f = k := ⟨f.toNat, by omega⟩
      rw [decide_eq_false hneg, Int.natAbs_natCast]
      rw [zpow_natCast] at hreads
      exact ofScientific_of_readsBack_whole hd (by omega) hcanonical hreads
  have hpoint : ¬ (figuresCount d : ℤ) + f < -400 := by omega
  have hpoint' : ¬ 400 < (figuresCount d : ℤ) + f := by omega
  rw [← hscientific]
  unfold Decimal.nearest
  change (if decide (d = 0) || decide ((figuresCount d : ℤ) + f < -400) then _
    else if 400 < (figuresCount d : ℤ) + f then _ else _) = _
  rw [decide_eq_false hd.ne', decide_eq_false hpoint, if_neg (by simp), if_neg hpoint']

end Decimals

end Vigil.Double
