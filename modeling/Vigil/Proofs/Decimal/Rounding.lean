import Mathlib

/-!
# Rounding to doubles

A quotient is rounded in steps: a division with remainder yields more digits than a
double has, shifts drop the last ones, and two residual bits keep what is needed to
round at the end.  What the steps preserve is the exact number that the digits and the
residual bits stand for.  So a quotient that lies nearer to a double than to both of its
neighbours, or halfway and the double is even, is rounded to this double.
-/

namespace Vigil.Double

open Float.Model (Format totalExponent UnpackedFloat)
open Float.Model.UnpackedFloat

/-- The number lies where a mantissa and its residual bits say: at the mantissa or above
it, and not above, at or above the middle to the next one. -/
def Represents (em : ExtendedMantissa) (x : ℚ) : Prop :=
  match em.roundBit, em.stickyBit with
  | false, false => x = em.mantissa
  | false, true => em.mantissa < x ∧ x < em.mantissa + 1 / 2
  | true, false => x = em.mantissa + 1 / 2
  | true, true => em.mantissa + 1 / 2 < x ∧ x < em.mantissa + 1

/-- A number rounds to a mantissa: it is nearer to it than to any other, or halfway to
another and the mantissa is even. -/
structure RoundsTo (x : ℚ) (m : ℕ) : Prop where
  lower : (m : ℚ) - 1 / 2 ≤ x
  upper : x ≤ m + 1 / 2
  odd : m % 2 = 1 → (m : ℚ) - 1 / 2 < x ∧ x < m + 1 / 2

namespace Represents

variable {em : ExtendedMantissa} {x : ℚ}

theorem mantissa_le (h : Represents em x) : (em.mantissa : ℚ) ≤ x := by
  rcases em with ⟨m, r, s⟩
  cases r <;> cases s <;> simp only [Represents] at h <;> linarith

theorem lt_mantissa_add_one (h : Represents em x) : x < em.mantissa + 1 := by
  rcases em with ⟨m, r, s⟩
  cases r <;> cases s <;> simp only [Represents] at h <;> linarith

theorem shiftRightOne (h : Represents em x) : Represents em.shiftRightOne (x / 2) := by
  rcases em with ⟨m, r, s⟩
  have hm : (m : ℚ) = 2 * (m / 2 : ℕ) + (m % 2 : ℕ) := by
    exact_mod_cast (Nat.div_add_mod m 2).symm
  rcases Nat.mod_two_eq_zero_or_one m with hparity | hparity
  · rw [hparity, Nat.cast_zero] at hm
    have hround : (m % 2 != 0) = false := by rw [hparity]; rfl
    cases r <;> cases s <;>
      simp only [Represents, ExtendedMantissa.shiftRightOne, hround, Bool.or_false,
        Bool.or_true] at h ⊢ <;>
      first | linarith | (constructor <;> linarith)
  · rw [hparity, Nat.cast_one] at hm
    have hround : (m % 2 != 0) = true := by rw [hparity]; rfl
    cases r <;> cases s <;>
      simp only [Represents, ExtendedMantissa.shiftRightOne, hround, Bool.or_false,
        Bool.or_true] at h ⊢ <;>
      first | linarith | (constructor <;> linarith)

theorem shiftRight (h : Represents em x) (n : ℕ) : Represents (em >>> n) (x / 2 ^ n) := by
  change Represents (n.repeat ExtendedMantissa.shiftRightOne em) _
  induction n with
  | zero => simpa [Nat.repeat] using h
  | succ n ih =>
      rw [Nat.repeat, pow_succ, ← div_div]
      exact ih.shiftRightOne

theorem roundedMantissa {m : ℕ} (h : Represents em x) (hround : RoundsTo x m) :
    em.roundedMantissa = m := by
  obtain ⟨hlower, hupper, hodd⟩ := hround
  have hbelow := h.mantissa_le
  have habove := h.lt_mantissa_add_one
  have hle : em.mantissa < m + 1 := by
    have : (em.mantissa : ℚ) < (m + 1 : ℕ) := by
      push_cast
      linarith
    exact_mod_cast this
  have hge : m < em.mantissa + 2 := by
    have : (m : ℚ) < (em.mantissa + 2 : ℕ) := by
      push_cast
      linarith
    exact_mod_cast this
  rcases em with ⟨n, r, s⟩
  change n < m + 1 at hle
  change m < n + 2 at hge
  change (ExtendedMantissa.accuracy ⟨n, r, s⟩).roundToNearestEven n = m
  obtain rfl | rfl : n = m ∨ m = n + 1 := by omega
  · -- The number is not above the middle, and in the middle only for an even mantissa.
    cases r <;> cases s <;> simp only [Represents] at h
    · rfl
    · rfl
    · have heven : n % 2 = 0 := by
        by_contra hne
        have := (hodd (by omega)).2
        linarith
      change n + n % 2 = n
      omega
    · linarith
  · -- The number is not below the middle, and in the middle only for an odd mantissa.
    push_cast at hlower hodd
    cases r <;> cases s <;> simp only [Represents] at h
    · linarith
    · linarith
    · have hparity : n % 2 = 1 := by
        by_contra hne
        have := (hodd (by omega)).1
        linarith
      change n + n % 2 = n + 1
      omega
    · rfl

/-- A quotient lies at its whole part where the remainder says. -/
theorem of_fraction (m : ℕ) {num den : ℕ} (h : num < den) :
    Represents (.ofMantissaAndAccuracy m (accuracyOfFraction num den)) (m + num / den) := by
  have hden : (0 : ℚ) < den := by exact_mod_cast Nat.zero_lt_of_lt h
  have hlt : (num : ℚ) / den < 1 := by
    rw [div_lt_one hden]
    exact_mod_cast h
  unfold accuracyOfFraction
  split
  · rename_i hzero
    simp [Represents, ExtendedMantissa.ofMantissaAndAccuracy, hzero]
  · rename_i hne
    have hpos : (0 : ℚ) < num / den := by
      have : (0 : ℚ) < num := by exact_mod_cast Nat.pos_of_ne_zero hne
      positivity
    cases hcompare : compare (2 * num) den with
    | lt =>
        have hhalf : (num : ℚ) / den < 1 / 2 := by
          rw [div_lt_div_iff₀ hden two_pos]
          have := Nat.compare_eq_lt.mp hcompare
          exact_mod_cast (by omega : num * 2 < 1 * den)
        simp only [Represents, ExtendedMantissa.ofMantissaAndAccuracy]
        constructor <;> linarith
    | eq =>
        have hhalf : (num : ℚ) / den = 1 / 2 := by
          rw [div_eq_div_iff hden.ne' two_ne_zero]
          have := Nat.compare_eq_eq.mp hcompare
          exact_mod_cast (by omega : num * 2 = 1 * den)
        simp only [Represents, ExtendedMantissa.ofMantissaAndAccuracy]
        linarith
    | gt =>
        have hhalf : 1 / 2 < (num : ℚ) / den := by
          rw [div_lt_div_iff₀ two_pos hden]
          have := Nat.compare_eq_gt.mp hcompare
          exact_mod_cast (by omega : 1 * den < num * 2)
        simp only [Represents, ExtendedMantissa.ofMantissaAndAccuracy]
        constructor <;> linarith

theorem exact (m : ℕ) : Represents (.ofMantissaAndAccuracy m .exact) m := rfl

end Represents

/-- The exponent of the doubles around a number: the number has fifty-three bits above
it, or fewer and the exponent is the least of all. -/
structure IsExponent (e : ℤ) (x : ℚ) : Prop where
  least : -1074 ≤ e
  upper : x < 2 ^ (e + 53)
  lower : e = -1074 ∨ (2 : ℚ) ^ (e + 52) ≤ x

theorem IsExponent.unique {e f : ℤ} {x : ℚ} (he : IsExponent e x) (hf : IsExponent f x) :
    e = f := by
  have hle {e f : ℤ} (he : IsExponent e x) (hf : IsExponent f x) : e ≤ f := by
    rcases he.lower with rfl | hlower
    · exact hf.least
    · have hlt := (zpow_lt_zpow_iff_right₀ (by norm_num : (1 : ℚ) < 2)).mp
        (hlower.trans_lt hf.upper)
      omega
  exact le_antisymm (hle he hf) (hle hf he)

theorem targetExponent_eq (e : ℤ) :
    Format.binary64.targetExponent e = max (e - 53) (-1074) := rfl

/-- The leading bits of a number determine its exponent, if there are any or the number
is small enough. -/
theorem isExponent_targetExponent {q : ℕ} {t : ℤ} {x : ℚ} (hbits : 0 < q ∨ t ≤ -1074)
    (hlower : (q : ℚ) * 2 ^ t ≤ x) (hupper : x < (q + 1) * 2 ^ t) :
    IsExponent (Format.binary64.targetExponent (totalExponent q t)) x := by
  rw [targetExponent_eq, totalExponent]
  rcases Nat.eq_zero_or_pos q with rfl | hq
  · have ht : t ≤ -1074 := by omega
    have hmax : max (((Nat.log2 0 : ℕ) : ℤ) + 1 + t - 53) (-1074) = -1074 := by
      simp
      omega
    rw [hmax]
    refine ⟨le_rfl, ?_, .inl rfl⟩
    rw [Nat.cast_zero, zero_add, one_mul] at hupper
    exact hupper.trans_le (zpow_le_zpow_right₀ (by norm_num) (by omega))
  · have hpos : (0 : ℚ) < 2 ^ t := by positivity
    have hleast : (2 : ℚ) ^ ((Nat.log2 q : ℕ) : ℤ) ≤ q := by
      exact_mod_cast Nat.log2_self_le hq.ne'
    have hgreatest : (q : ℚ) + 1 ≤ 2 ^ (((Nat.log2 q : ℕ) : ℤ) + 1) := by
      exact_mod_cast Nat.lt_log2_self
    have habove : (2 : ℚ) ^ (((Nat.log2 q : ℕ) : ℤ) + t) ≤ x := by
      rw [zpow_add₀ two_ne_zero]
      exact (mul_le_mul_of_nonneg_right hleast hpos.le).trans hlower
    have hbelow : x < 2 ^ (((Nat.log2 q : ℕ) : ℤ) + 1 + t) := by
      rw [zpow_add₀ two_ne_zero]
      exact hupper.trans_le (mul_le_mul_of_nonneg_right hgreatest hpos.le)
    refine ⟨le_max_right _ _, hbelow.trans_le (zpow_le_zpow_right₀ (by norm_num) (by omega)), ?_⟩
    rcases max_choice (((Nat.log2 q : ℕ) : ℤ) + 1 + t - 53) (-1074) with hmax | hmax
    · right
      rw [hmax]
      convert habove using 2
      omega
    · exact .inl hmax

/-- A mantissa and an exponent as a double has them. -/
structure Canonical (m : ℕ) (e : ℤ) : Prop where
  pos : 0 < m
  lt : m < 2 ^ 53
  least : -1074 ≤ e
  normal : e = -1074 ∨ 2 ^ 52 ≤ m

theorem Canonical.targetExponent_eq {m : ℕ} {e : ℤ} (h : Canonical m e) :
    Format.binary64.targetExponent (totalExponent m e) = e := by
  rw [Double.targetExponent_eq, totalExponent]
  have hlog : m.log2 < 53 := (Nat.log2_lt h.pos.ne').mpr h.lt
  have hleast := h.least
  rcases h.normal with rfl | hnormal
  · omega
  · have hlog' : 52 ≤ m.log2 := (Nat.le_log2 h.pos.ne').mpr hnormal
    omega

/-- How far below a double the middle to its neighbour is, in units of its last place. -/
def marginBelow (m : ℕ) (e : ℤ) : ℚ := if m = 2 ^ 52 ∧ -1074 < e then 1 / 4 else 1 / 2

/-- A number reads back as a double: it is nearer to it than to both of its neighbours,
or in the middle and the double is even. -/
structure ReadsBack (x : ℚ) (m : ℕ) (e : ℤ) : Prop where
  lower : (m - marginBelow m e) * 2 ^ e ≤ x
  upper : x ≤ (m + 1 / 2) * 2 ^ e
  odd : m % 2 = 1 → (m - 1 / 2) * 2 ^ e < x ∧ x < (m + 1 / 2) * 2 ^ e

theorem marginBelow_le (m : ℕ) (e : ℤ) : marginBelow m e ≤ 1 / 2 := by
  unfold marginBelow
  split <;> norm_num

theorem ReadsBack.pos {x : ℚ} {m : ℕ} {e : ℤ} (h : ReadsBack x m e) (hm : 0 < m) : 0 < x := by
  have hmargin := marginBelow_le m e
  have hone : (1 : ℚ) ≤ m := by exact_mod_cast hm
  have hpos : (0 : ℚ) < 2 ^ e := by positivity
  exact (mul_pos (by linarith) hpos).trans_le h.lower

theorem two_zpow_add_nat (e : ℤ) (n : ℕ) : (2 : ℚ) ^ (e + n) = 2 ^ n * 2 ^ e := by
  rw [zpow_add₀ two_ne_zero, zpow_natCast, mul_comm]

theorem isExponent_mul {y : ℚ} {e : ℤ} (hleast : -1074 ≤ e) (hlt : y < 2 ^ 53)
    (hnormal : e = -1074 ∨ (2 : ℚ) ^ 52 ≤ y) : IsExponent e (y * 2 ^ e) := by
  have hpos : (0 : ℚ) < 2 ^ e := by positivity
  refine ⟨hleast, ?_, hnormal.imp_right fun hy => ?_⟩
  · rw [show e + 53 = e + (53 : ℕ) by rfl, two_zpow_add_nat]
    exact mul_lt_mul_of_pos_right hlt hpos
  · rw [show e + 52 = e + (52 : ℕ) by rfl, two_zpow_add_nat]
    exact mul_le_mul_of_nonneg_right hy hpos.le

/-- A number that reads back as a double rounds to its mantissa at its own exponent, or
lies just below the power of two that the double is. -/
theorem ReadsBack.cases {x : ℚ} {m : ℕ} {e : ℤ} (h : ReadsBack x m e) (hcanonical : Canonical m e) :
    (IsExponent e x ∧ RoundsTo (x / 2 ^ e) m) ∨
    (m = 2 ^ 52 ∧ IsExponent (e - 1) x ∧ RoundsTo (x / 2 ^ (e - 1)) (2 ^ 53)) := by
  have hpos : (0 : ℚ) < 2 ^ e := by positivity
  obtain ⟨y, rfl⟩ : ∃ y, x = y * 2 ^ e := ⟨x / 2 ^ e, (div_mul_cancel₀ x hpos.ne').symm⟩
  obtain ⟨hlower, hupper, hodd⟩ := h
  rw [mul_le_mul_iff_left₀ hpos] at hlower hupper
  rw [mul_lt_mul_iff_left₀ hpos, mul_lt_mul_iff_left₀ hpos] at hodd
  have hmargin := marginBelow_le m e
  have hleast := hcanonical.least
  by_cases hbelow : (m = 2 ^ 52 ∧ -1074 < e) ∧ y < 2 ^ 52
  · right
    obtain ⟨⟨hm, hgreater⟩, hy⟩ := hbelow
    have hquarter : (2 : ℚ) ^ 52 - 1 / 4 ≤ y := by
      rw [marginBelow, if_pos ⟨hm, hgreater⟩, hm] at hlower
      exact_mod_cast hlower
    -- One exponent lower the number is twice as many units of the last place.
    have hdouble : y * 2 ^ e = 2 * y * 2 ^ (e - 1) := by
      rw [show e = e - 1 + (1 : ℕ) by omega, two_zpow_add_nat, pow_one, Nat.cast_one,
        add_sub_cancel_right]
      ring
    have hpos' : (0 : ℚ) < 2 ^ (e - 1) := by positivity
    rw [hdouble, mul_div_cancel_right₀ _ hpos'.ne']
    refine ⟨hm, isExponent_mul (by omega) (by linarith) (.inr (by linarith)), ?_, ?_, ?_⟩
    · push_cast
      linarith
    · push_cast
      linarith
    · norm_num
  · left
    have hm : (m : ℚ) + 1 ≤ 2 ^ 53 := by exact_mod_cast Nat.succ_le_of_lt hcanonical.lt
    have hnormal : e = -1074 ∨ (2 : ℚ) ^ 52 ≤ y := by
      rcases hcanonical.normal with heq | hnormal
      · exact .inl heq
      · by_cases heq : m = 2 ^ 52 ∧ -1074 < e
        · exact .inr (not_lt.mp fun hy => hbelow ⟨heq, hy⟩)
        · rcases Nat.eq_or_lt_of_le hnormal with hm' | hm'
          · exact .inl (by omega)
          · have hnext : (2 : ℚ) ^ 52 + 1 ≤ m := by exact_mod_cast Nat.succ_le_of_lt hm'
            exact .inr (by linarith)
    rw [mul_div_cancel_right₀ _ hpos.ne']
    exact ⟨isExponent_mul hleast (by linarith) hnormal, by linarith, hupper, hodd⟩

theorem shiftToExponent_eq (q : ℕ) (t : ℤ) (acc : Accuracy) {e : ℤ} (h : t ≤ e) :
    shiftToExponent q t acc e =
      (ExtendedMantissa.ofMantissaAndAccuracy q acc >>> (e - t).toNat, e) := by
  have hshift : t + ((e - t).toNat : ℤ) = e := by omega
  simp only [shiftToExponent, hshift]

theorem mantissa_ofMantissaAndAccuracy (q : ℕ) (acc : Accuracy) :
    (ExtendedMantissa.ofMantissaAndAccuracy q acc).mantissa = q := by
  rcases acc with _ | order
  · rfl
  · cases order <;> rfl

/-- What is left to do after the rounding, which may have carried into one digit more. -/
theorem shiftToTargetExponent_exact {m : ℕ} {e : ℤ} (h : Canonical m e) :
    (shiftToTargetExponent Format.binary64 m e .exact = (⟨m, false, false⟩, e)) ∧
    (m = 2 ^ 52 → -1074 < e →
      shiftToTargetExponent Format.binary64 (2 ^ 53) (e - 1) .exact = (⟨m, false, false⟩, e)) := by
  constructor
  · rw [shiftToTargetExponent, h.targetExponent_eq, shiftToExponent_eq _ _ _ le_rfl, sub_self]
    rfl
  · rintro rfl hleast
    have htarget : Format.binary64.targetExponent (totalExponent (2 ^ 53) (e - 1)) = e := by
      rw [targetExponent_eq, totalExponent, Nat.log2_two_pow]
      omega
    rw [shiftToTargetExponent, htarget, shiftToExponent_eq _ _ _ (by omega), sub_sub_cancel]
    rfl

/-- Digits and residual bits of a number are rounded to the double that the number reads
back as. -/
theorem roundWithAccuracy_eq {q : ℕ} {t : ℤ} {acc : Accuracy} {x : ℚ} (sign : Sign)
    (hrep : Represents (.ofMantissaAndAccuracy q acc) (x / 2 ^ t))
    (hbits : 2 ^ 52 ≤ q ∨ t ≤ -1074) {m : ℕ} {e : ℤ} (hcanonical : Canonical m e)
    (hreads : ReadsBack x m e) :
    roundWithAccuracy Format.binary64 sign q t acc = .finite sign m e hcanonical.pos := by
  have hpos : (0 : ℚ) < 2 ^ t := by positivity
  have hlower := hrep.mantissa_le
  have hupper := hrep.lt_mantissa_add_one
  rw [mantissa_ofMantissaAndAccuracy, le_div_iff₀ hpos] at hlower
  rw [mantissa_ofMantissaAndAccuracy, div_lt_iff₀ hpos] at hupper
  have hexponent := isExponent_targetExponent (hbits.imp_left fun h => by omega) hlower hupper
  have hle : t ≤ Format.binary64.targetExponent (totalExponent q t) := by
    rw [targetExponent_eq, totalExponent]
    rcases hbits with hq | ht
    · have := (Nat.le_log2 (by omega : q ≠ 0)).mpr hq
      omega
    · omega
  generalize htarget : Format.binary64.targetExponent (totalExponent q t) = s at hexponent hle
  have hshifted : Represents (ExtendedMantissa.ofMantissaAndAccuracy q acc >>> (s - t).toNat)
      (x / 2 ^ s) := by
    have hsplit : (2 : ℚ) ^ s = 2 ^ t * 2 ^ (s - t).toNat := by
      rw [mul_comm, ← two_zpow_add_nat]
      congr 1
      omega
    rw [hsplit, ← div_div]
    exact hrep.shiftRight _
  have hfirst : shiftToTargetExponent Format.binary64 q t acc =
      (ExtendedMantissa.ofMantissaAndAccuracy q acc >>> (s - t).toNat, s) := by
    rw [shiftToTargetExponent, htarget, shiftToExponent_eq _ _ _ hle]
  obtain ⟨hexact, hcarry⟩ := shiftToTargetExponent_exact hcanonical
  rcases hreads.cases hcanonical with ⟨he, hround⟩ | ⟨hm, he, hround⟩
  · obtain rfl := hexponent.unique he
    simp only [roundWithAccuracy, hfirst, hshifted.roundedMantissa hround, hexact,
      hcanonical.pos.ne', dite_false]
  · obtain rfl := hexponent.unique he
    have hleast : -1074 < e := by have := he.least; omega
    simp only [roundWithAccuracy, hfirst, hshifted.roundedMantissa hround, hcarry hm hleast,
      hcanonical.pos.ne', dite_false]

/-- A division with remainder yields the digits and the residual bits of a quotient, and
enough of them. -/
theorem divCore_spec {m₁ m₂ : ℕ} (e₁ e₂ : ℤ) (h₁ : 0 < m₁) (h₂ : 0 < m₂) {x : ℚ}
    (hx : x * (m₂ * 2 ^ e₂) = m₁ * 2 ^ e₁) :
    ∃ q t acc, divCore Format.binary64 m₁ e₁ m₂ e₂ = (q, t, acc) ∧
      Represents (.ofMantissaAndAccuracy q acc) (x / 2 ^ t) ∧ (2 ^ 52 ≤ q ∨ t ≤ -1074) := by
  simp only [divCore, targetExponent_eq, totalExponent]
  generalize ht : min (e₁ - e₂) (max ((m₁.log2 : ℤ) + 1 + e₁ - (m₂.log2 + 1 + e₂) - 53) (-1074)) = t
  generalize hn : (e₁ - e₂ - t).toNat = n
  have hn' : e₁ = t + e₂ + n := by omega
  refine ⟨_, t, _, rfl, ?_, ?_⟩
  · have hm₂ : (m₂ : ℚ) ≠ 0 := by exact_mod_cast h₂.ne'
    have hdivision : (m₂ : ℚ) * ((m₁ <<< n / m₂ : ℕ) : ℚ) + ((m₁ <<< n % m₂ : ℕ) : ℚ) =
        m₁ * 2 ^ n := by
      rw [Nat.shiftLeft_eq]
      exact_mod_cast Nat.div_add_mod (m₁ * 2 ^ n) m₂
    have hscaled : x / 2 ^ t * m₂ = m₁ * 2 ^ n := by
      rw [hn', two_zpow_add_nat, zpow_add₀ two_ne_zero] at hx
      have he₂ : (2 : ℚ) ^ e₂ ≠ 0 := by positivity
      have ht : (2 : ℚ) ^ t ≠ 0 := by positivity
      rw [div_mul_eq_mul_div, div_eq_iff ht]
      apply mul_right_cancel₀ he₂
      linarith
    have hquotient : x / 2 ^ t =
        ((m₁ <<< n / m₂ : ℕ) : ℚ) + ((m₁ <<< n % m₂ : ℕ) : ℚ) / m₂ := by
      rw [eq_div_of_mul_eq hm₂ hscaled, ← hdivision, add_div, mul_div_cancel_left₀ _ hm₂]
    rw [hquotient]
    exact Represents.of_fraction _ (Nat.mod_lt _ h₂)
  · by_cases hsmall : t ≤ -1074
    · exact .inr hsmall
    · left
      have hshift : m₂.log2 + 1 + 52 ≤ m₁.log2 + n := by omega
      rw [Nat.le_div_iff_mul_le h₂, Nat.shiftLeft_eq]
      calc 2 ^ 52 * m₂ ≤ 2 ^ 52 * 2 ^ (m₂.log2 + 1) :=
            Nat.mul_le_mul_left _ (Nat.le_of_lt Nat.lt_log2_self)
        _ = 2 ^ (m₂.log2 + 1 + 52) := by rw [Nat.pow_add _ (m₂.log2 + 1), Nat.mul_comm]
        _ ≤ 2 ^ (m₁.log2 + n) := Nat.pow_le_pow_right two_pos hshift
        _ = 2 ^ m₁.log2 * 2 ^ n := Nat.pow_add ..
        _ ≤ m₁ * 2 ^ n := Nat.mul_le_mul_right _ (Nat.log2_self_le h₁.ne')

/-- A quotient of doubles is the double that the exact quotient reads back as. -/
theorem div_eq_of_readsBack {s₁ s₂ : Sign} {m₁ m₂ : ℕ} {e₁ e₂ : ℤ} (h₁ : 0 < m₁) (h₂ : 0 < m₂)
    {x : ℚ} (hx : x * (m₂ * 2 ^ e₂) = m₁ * 2 ^ e₁) {m : ℕ} {e : ℤ}
    (hcanonical : Canonical m e) (hreads : ReadsBack x m e) :
    div Format.binary64 (.finite s₁ m₁ e₁ h₁) (.finite s₂ m₂ e₂ h₂) =
      .finite (s₁ / s₂) m e hcanonical.pos := by
  obtain ⟨q, t, acc, hcore, hrep, hbits⟩ := divCore_spec e₁ e₂ h₁ h₂ hx
  simp only [div, hcore]
  exact roundWithAccuracy_eq _ hrep hbits hcanonical hreads

end Vigil.Double
