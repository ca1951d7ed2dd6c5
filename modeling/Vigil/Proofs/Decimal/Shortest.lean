import Vigil.Decimal.Shortest
import Vigil.Proofs.Decimal.Nearest

/-!
# Shortest decimals read back

The search for a shortest decimal takes only decimals from the interval that reads back
as the double.  It ends, for among its grids is one so fine that the point next below
the double is in the interval.
-/

namespace Vigil.Decimal

open Double

/-- The number that a decimal stands for. -/
def Scientific.value (d : Scientific) : ℚ := d.digits * 10 ^ d.exponent

theorem zpow_eq_div (a : ℚ) (e : ℤ) : a ^ e = a ^ e.toNat / a ^ (-e).toNat := by
  rcases le_total 0 e with he | he
  · have hneg : (-e).toNat = 0 := by omega
    rw [hneg, pow_zero, div_one, ← zpow_natCast, Int.toNat_of_nonneg he]
  · have hneg : e.toNat = 0 := by omega
    rw [hneg, pow_zero, one_div, ← zpow_natCast, Int.toNat_of_nonneg (by omega), zpow_neg, inv_inv]

namespace Binary

/-- The ends of the interval that reads back as a binary number. -/
def lowerEnd (b : Binary) : ℚ :=
  (4 * b.mantissa - if b.atBinadeStart then 1 else 2) * 2 ^ (b.exponent - 2)

@[inherit_doc lowerEnd]
def upperEnd (b : Binary) : ℚ := (4 * b.mantissa + 2) * 2 ^ (b.exponent - 2)

def exactValue (b : Binary) : ℚ := b.mantissa * 2 ^ b.exponent

variable {b : Binary}

theorem denominator_pos (b : Binary) : (0 : ℚ) < b.interval.denominator := by
  change (0 : ℚ) < ((2 ^ _ : ℕ) : ℚ)
  positivity

theorem scale_eq (b : Binary) : ((Nat.pow 2 (b.exponent - 2).toNat : ℕ) : ℚ) =
    2 ^ (b.exponent - 2) * b.interval.denominator := by
  change ((2 ^ _ : ℕ) : ℚ) = _ * ((2 ^ _ : ℕ) : ℚ)
  rw [zpow_eq_div]
  push_cast
  rw [div_mul_cancel₀]
  positivity

theorem lower_eq (hm : 0 < b.mantissa) :
    (b.interval.lower : ℚ) = b.lowerEnd * b.interval.denominator := by
  have hlower : (((4 * b.mantissa - if b.atBinadeStart then 1 else 2 : ℕ) : ℕ) : ℚ) =
      4 * b.mantissa - if b.atBinadeStart then 1 else 2 := by
    cases b.atBinadeStart
    · simp only [Bool.false_eq_true, if_false]
      rw [Nat.cast_sub (by omega)]
      push_cast
      rfl
    · simp only [if_true]
      rw [Nat.cast_sub (by omega)]
      push_cast
      rfl
  change ((_ * Nat.pow 2 (b.exponent - 2).toNat : ℕ) : ℚ) = _
  rw [Nat.cast_mul, scale_eq, hlower, lowerEnd, mul_assoc]

theorem upper_eq (b : Binary) :
    (b.interval.upper : ℚ) = b.upperEnd * b.interval.denominator := by
  change (((4 * b.mantissa + 2) * Nat.pow 2 (b.exponent - 2).toNat : ℕ) : ℚ) = _
  rw [Nat.cast_mul, scale_eq, upperEnd, mul_assoc]
  push_cast
  rfl

theorem four_mul_two_zpow (e : ℤ) : 4 * (2 : ℚ) ^ (e - 2) = 2 ^ e := by
  rw [zpow_sub₀ two_ne_zero]
  norm_num
  ring

theorem value_eq (b : Binary) :
    (b.interval.value : ℚ) = b.exactValue * b.interval.denominator := by
  change ((4 * b.mantissa * Nat.pow 2 (b.exponent - 2).toNat : ℕ) : ℚ) = _
  rw [Nat.cast_mul, scale_eq, exactValue, ← four_mul_two_zpow b.exponent]
  push_cast
  ring

/-- The decimal and a point on the denominator of the interval, over one denominator. -/
theorem scaled_eq (b : Binary) (d : Scientific) :
    ((d.digits * b.interval.denominator * Nat.pow 10 d.exponent.toNat : ℕ) : ℚ) =
      d.value * (b.interval.denominator * 10 ^ (-d.exponent).toNat) := by
  have hten : (10 : ℚ) ^ (-d.exponent).toNat ≠ 0 := by positivity
  rw [Scientific.value, zpow_eq_div]
  change ((_ * _ * 10 ^ _ : ℕ) : ℚ) = _
  push_cast
  field_simp

theorem contains_iff (hm : 0 < b.mantissa) (d : Scientific) :
    b.interval.contains d = true ↔
      if b.mantissa % 2 = 0 then b.lowerEnd ≤ d.value ∧ d.value ≤ b.upperEnd
      else b.lowerEnd < d.value ∧ d.value < b.upperEnd := by
  have hunit : (0 : ℚ) < b.interval.denominator * 10 ^ (-d.exponent).toNat :=
    mul_pos b.denominator_pos (by positivity)
  have hend {n : ℕ} {q : ℚ} (hn : (n : ℚ) = q * b.interval.denominator) :
      ((n * Nat.pow 10 (-d.exponent).toNat : ℕ) : ℚ) =
        q * (b.interval.denominator * 10 ^ (-d.exponent).toNat) := by
    change ((_ * 10 ^ _ : ℕ) : ℚ) = _
    rw [Nat.cast_mul, hn, mul_assoc]
    push_cast
    rfl
  have hlower := hend (lower_eq hm)
  have hupper := hend (upper_eq b)
  have hscaled := scaled_eq b d
  change (if decide (b.mantissa % 2 = 0) then _ else _) = true ↔ _
  by_cases heven : b.mantissa % 2 = 0
  · rw [decide_eq_true heven, if_pos rfl, if_pos heven, Bool.and_eq_true, decide_eq_true_eq,
      decide_eq_true_eq, ← Nat.cast_le (α := ℚ), ← Nat.cast_le (α := ℚ), hlower, hupper, hscaled,
      mul_le_mul_iff_left₀ hunit, mul_le_mul_iff_left₀ hunit]
  · rw [decide_eq_false heven, if_neg Bool.false_ne_true, if_neg heven, Bool.and_eq_true,
      decide_eq_true_eq, decide_eq_true_eq, ← Nat.cast_lt (α := ℚ), ← Nat.cast_lt (α := ℚ), hlower,
      hupper, hscaled, mul_lt_mul_iff_left₀ hunit, mul_lt_mul_iff_left₀ hunit]

/-- The point of a grid next below a binary number. -/
theorem below_bounds (b : Binary) (g : ℤ) :
    ((b.interval.below g).1 : ℚ) * 10 ^ g ≤ b.exactValue ∧
      b.exactValue < ((b.interval.below g).1 + 1) * 10 ^ g := by
  have hden := b.denominator_pos
  have hunit : (0 : ℚ) < 10 ^ (-g).toNat := by positivity
  have hgrid : (10 : ℚ) ^ g * 10 ^ (-g).toNat = 10 ^ g.toNat := by
    rw [zpow_eq_div, div_mul_cancel₀ _ hunit.ne']
  have hstep : 0 < b.interval.denominator * 10 ^ g.toNat := by
    have : 0 < b.interval.denominator := by exact_mod_cast hden
    positivity
  change ((b.interval.value * 10 ^ (-g).toNat / (b.interval.denominator * 10 ^ g.toNat) : ℕ) : ℚ) *
      10 ^ g ≤ _ ∧ _ < (((b.interval.value * 10 ^ (-g).toNat /
        (b.interval.denominator * 10 ^ g.toNat) : ℕ) : ℚ) + 1) * 10 ^ g
  generalize hpoint : b.interval.value * 10 ^ (-g).toNat /
    (b.interval.denominator * 10 ^ g.toNat) = point
  have hle : point * (b.interval.denominator * 10 ^ g.toNat) ≤
      b.interval.value * 10 ^ (-g).toNat := by
    rw [← hpoint]
    exact Nat.div_mul_le_self _ _
  have hlt : b.interval.value * 10 ^ (-g).toNat <
      (point + 1) * (b.interval.denominator * 10 ^ g.toNat) := by
    rw [← hpoint]
    exact (Nat.div_lt_iff_lt_mul hstep).mp (Nat.lt_succ_self _)
  replace hle : (point : ℚ) * (b.interval.denominator * 10 ^ g.toNat) ≤
      b.interval.value * 10 ^ (-g).toNat := by exact_mod_cast hle
  replace hlt : (b.interval.value : ℚ) * 10 ^ (-g).toNat <
      (point + 1) * (b.interval.denominator * 10 ^ g.toNat) := by exact_mod_cast hlt
  rw [value_eq, ← hgrid] at hle hlt
  constructor
  · apply le_of_mul_le_mul_right _ (mul_pos hden hunit)
    linarith
  · apply lt_of_mul_lt_mul_right _ (mul_pos hden hunit).le
    linarith

/-- On a fine grid, the point next below a binary number is in its interval. -/
theorem contains_below (hm : 0 < b.mantissa) {g : ℤ} (hg : (10 : ℚ) ^ g ≤ 2 ^ (b.exponent - 2)) :
    b.interval.contains ⟨(b.interval.below g).1, g⟩ = true := by
  have hquarter : (0 : ℚ) < 2 ^ (b.exponent - 2) := by positivity
  have hstep : (0 : ℚ) < 10 ^ g := by positivity
  have hbounds := b.below_bounds g
  generalize (b.interval.below g).1 = point at hbounds ⊢
  have hexact : b.exactValue = 4 * b.mantissa * 2 ^ (b.exponent - 2) := by
    rw [exactValue, ← four_mul_two_zpow b.exponent]
    ring
  have hvalue : Scientific.value ⟨point, g⟩ = point * 10 ^ g := rfl
  have habove : b.lowerEnd < point * 10 ^ g := by
    have hmargin : (1 : ℚ) ≤ if b.atBinadeStart then 1 else 2 := by
      split <;> norm_num
    have := mul_le_mul_of_nonneg_right hmargin hquarter.le
    rw [lowerEnd]
    linarith [hbounds.2]
  have hbelow : point * 10 ^ g < b.upperEnd := by
    rw [upperEnd]
    linarith [hbounds.1]
  rw [contains_iff hm, hvalue]
  split
  · exact ⟨habove.le, hbelow.le⟩
  · exact ⟨habove, hbelow⟩

end Binary

namespace Interval

variable {i : Interval} {ties : TieRule}

theorem contains_of_onGrid? {g : ℤ} {d : Scientific} (h : i.onGrid? ties g = some d) :
    i.contains d = true := by
  unfold onGrid? at h
  simp only at h
  split at h
  · split at h
    · cases h
      assumption
    · split at h <;> cases h <;> assumption
    · cases h
      assumption
  · cases h
    assumption
  · cases h
    assumption
  · cases h

theorem isSome_onGrid? (ties : TieRule) {g : ℤ} (h : i.contains ⟨(i.below g).1, g⟩ = true) :
    (i.onGrid? ties g).isSome = true := by
  unfold onGrid?
  simp only [h]
  split
  · split <;> rfl
  all_goals simp_all

theorem contains_of_search {count : ℕ} {g : ℤ} {d : Scientific}
    (h : i.search ties count g = some d) : i.contains d = true := by
  induction count generalizing g with
  | zero => cases h
  | succ count ih =>
      unfold search at h
      split at h
      · cases h
        exact contains_of_onGrid? ‹_›
      · exact ih h

theorem isSome_search {count : ℕ} {g : ℤ}
    (h : ∃ j < count, i.contains ⟨(i.below (g - j)).1, g - j⟩ = true) :
    (i.search ties count g).isSome = true := by
  induction count generalizing g with
  | zero =>
      obtain ⟨j, hj, -⟩ := h
      omega
  | succ count ih =>
      unfold search
      split
      · rfl
      · rename_i hnone
        obtain ⟨j, hj, hcontains⟩ := h
        cases j with
        | zero =>
            rw [Nat.cast_zero, sub_zero] at hcontains
            have := isSome_onGrid? ties hcontains
            rw [hnone] at this
            cases this
        | succ j =>
            apply ih
            refine ⟨j, by omega, ?_⟩
            rwa [show g - 1 - (j : ℤ) = g - (j + 1 : ℕ) by omega]

end Interval

/-! ## The finest grid -/

/-- Ten is less than two to ten thirds, and more than two to ninety-three
twenty-eighths; on the exponents of doubles this is close enough. -/
theorem ten_zpow_le_two_zpow {g f : ℤ} (hpos : 0 ≤ g → 10 * g ≤ 3 * f)
    (hneg : g ≤ 0 → 93 * g ≤ 28 * f) : (10 : ℚ) ^ g ≤ 2 ^ f := by
  rcases le_total 0 g with hg | hg
  · have hcube : ((10 : ℚ) ^ g) ^ 3 ≤ (2 ^ f) ^ 3 := by
      calc ((10 : ℚ) ^ g) ^ 3 = (10 ^ 3) ^ g := by
            rw [← zpow_natCast, ← zpow_mul, mul_comm, zpow_mul]
            rfl
        _ ≤ (2 ^ 10) ^ g := zpow_le_zpow_left₀ hg (by norm_num) (by norm_num)
        _ = 2 ^ (10 * g) := by rw [zpow_mul]; rfl
        _ ≤ 2 ^ (3 * f) := zpow_le_zpow_right₀ (by norm_num) (hpos hg)
        _ = (2 ^ f) ^ 3 := by
            rw [mul_comm, zpow_mul]
            rfl
    exact le_of_pow_le_pow_left₀ (by norm_num) (by positivity) hcube
  · have hbase : ((10 : ℚ) ^ 28) ^ g ≤ (2 ^ 93) ^ g := by
      obtain ⟨n, rfl⟩ : ∃ n, g = -n := ⟨-g, (neg_neg g).symm⟩
      rw [zpow_neg, zpow_neg]
      exact inv_anti₀ (by positivity)
        (zpow_le_zpow_left₀ (by omega) (by norm_num) (by norm_num))
    have hpower : ((10 : ℚ) ^ g) ^ 28 ≤ (2 ^ f) ^ 28 := by
      calc ((10 : ℚ) ^ g) ^ 28 = (10 ^ 28) ^ g := by
            rw [← zpow_natCast, ← zpow_mul, mul_comm, zpow_mul]
            rfl
        _ ≤ (2 ^ 93) ^ g := hbase
        _ = 2 ^ (93 * g) := by rw [zpow_mul]; rfl
        _ ≤ 2 ^ (28 * f) := zpow_le_zpow_right₀ (by norm_num) (hneg hg)
        _ = (2 ^ f) ^ 28 := by
            rw [mul_comm, zpow_mul]
            rfl
    exact le_of_pow_le_pow_left₀ (by norm_num) (by positivity) hpower

/-- The last grid of the search is fine enough. -/
theorem Binary.finest_grid {b : Binary} (h : Canonical b.mantissa b.exponent)
    (hmax : b.exponent ≤ 971) : (10 : ℚ) ^ (b.tenPower - 23) ≤ 2 ^ (b.exponent - 2) := by
  have hlog : b.mantissa.log2 < 53 := (Nat.log2_lt h.pos.ne').mpr h.lt
  have hleast := h.least
  apply ten_zpow_le_two_zpow
  · unfold tenPower
    rw [Int.ofNat_eq_natCast]
    omega
  · unfold tenPower
    rw [Int.ofNat_eq_natCast]
    omega

theorem Binary.exists_search {b : Binary} (ties : TieRule) (h : Canonical b.mantissa b.exponent)
    (hmax : b.exponent ≤ 971) : ∃ d, b.interval.search ties 24 b.tenPower = some d ∧
      b.interval.contains d = true := by
  have hsome : (b.interval.search ties 24 b.tenPower).isSome = true :=
    Interval.isSome_search ⟨23, by decide, contains_below h.pos (finest_grid h hmax)⟩
  obtain ⟨d, hd⟩ := Option.isSome_iff_exists.mp hsome
  exact ⟨d, hd, Interval.contains_of_search hd⟩

/-! ## The decimal that is found -/

theorem Scientific.stripZeros_spec (fuel : ℕ) {d : Scientific} (h : 0 < d.digits) :
    0 < (d.stripZeros fuel).digits ∧ (d.stripZeros fuel).value = d.value := by
  induction fuel generalizing d with
  | zero => exact ⟨h, rfl⟩
  | succ fuel ih =>
      unfold stripZeros
      split
      · rename_i hzero
        obtain ⟨hpos, hvalue⟩ := ih (d := ⟨d.digits / 10, d.exponent + 1⟩) (by simp only; omega)
        refine ⟨hpos, hvalue.trans ?_⟩
        have hdigits : (d.digits : ℚ) = 10 * (d.digits / 10 : ℕ) := by
          exact_mod_cast (Nat.mul_div_cancel' (Nat.dvd_of_mod_eq_zero hzero.1)).symm
        rw [Scientific.value, Scientific.value, hdigits, zpow_add_one₀ (by norm_num)]
        ring
      · exact ⟨h, rfl⟩

theorem Binary.lowerEnd_eq {b : Binary}
    (hstart : b.atBinadeStart = true ↔ b.mantissa = 2 ^ 52 ∧ -1074 < b.exponent) :
    b.lowerEnd = (b.mantissa - marginBelow b.mantissa b.exponent) * 2 ^ b.exponent := by
  rw [lowerEnd, ← four_mul_two_zpow b.exponent, marginBelow]
  by_cases h : b.atBinadeStart = true
  · rw [if_pos h, if_pos (hstart.mp h)]
    ring
  · rw [if_neg h, if_neg (mt hstart.mpr h)]
    ring

theorem Binary.upperEnd_eq (b : Binary) :
    b.upperEnd = (b.mantissa + 1 / 2) * 2 ^ b.exponent := by
  rw [upperEnd, ← four_mul_two_zpow b.exponent]
  ring

theorem Binary.readsBack_of_contains {b : Binary} (hm : 0 < b.mantissa)
    (hstart : b.atBinadeStart = true ↔ b.mantissa = 2 ^ 52 ∧ -1074 < b.exponent) {d : Scientific}
    (hd : b.interval.contains d = true) : ReadsBack d.value b.mantissa b.exponent := by
  rw [contains_iff hm, lowerEnd_eq hstart, upperEnd_eq] at hd
  split at hd
  · rename_i heven
    exact ⟨hd.1, hd.2, fun hodd => by omega⟩
  · refine ⟨hd.1.le, hd.2.le, fun hodd => ?_⟩
    have hmargin : marginBelow b.mantissa b.exponent = 1 / 2 := by
      rw [marginBelow, if_neg]
      omega
    rw [hmargin] at hd
    exact hd

theorem atBinadeStart_ofFloat (x : Float) : (Binary.ofFloat x).atBinadeStart = true ↔
    (Binary.ofFloat x).mantissa = 2 ^ 52 ∧ -1074 < (Binary.ofFloat x).exponent := by
  have hfraction : x.toBits.toNat % leadingBit < leadingBit := Nat.mod_lt _ (by decide)
  have hbit : leadingBit = 2 ^ 52 := rfl
  unfold Binary.ofFloat
  change (if field x = 0 then _ else _ : Binary).atBinadeStart = true ↔
    (if field x = 0 then _ else _ : Binary).mantissa = _ ∧
      _ < (if field x = 0 then _ else _ : Binary).exponent
  split
  · simp only [Bool.false_eq_true, false_iff]
    omega
  · change (x.toBits.toNat % leadingBit == 0 && decide (1 < field x)) = true ↔
      leadingBit + x.toBits.toNat % leadingBit = 2 ^ 52 ∧ -1074 < ((field x : ℕ) : ℤ) - 1075
    rw [Bool.and_eq_true, beq_iff_eq, decide_eq_true_eq]
    omega

/-- The shortest decimal of a double reads back as it. -/
theorem shortest_readsBack (ties : TieRule) {x : Float} (hx : x.isFinite = true)
    (hm : 0 < (Binary.ofFloat x).mantissa) : 0 < (shortest ties x).digits ∧
      ReadsBack (shortest ties x).value (Binary.ofFloat x).mantissa
        (Binary.ofFloat x).exponent := by
  obtain ⟨hcanonical, hmax⟩ := canonical_ofFloat hx hm
  obtain ⟨d, hd, hcontains⟩ := Binary.exists_search ties hcanonical hmax
  have hreads := Binary.readsBack_of_contains hm (atBinadeStart_ofFloat x) hcontains
  have hdigits : 0 < d.digits := by
    by_contra hzero
    have hpos := hreads.pos hm
    rw [Scientific.value, Nat.eq_zero_of_not_pos hzero, Nat.cast_zero, zero_mul] at hpos
    exact lt_irrefl _ hpos
  have hshortest : shortest ties x = d.stripZeros 20 := by
    simp only [shortest, hm.ne', if_false, hd, Option.getD_some]
  obtain ⟨hpos, hvalue⟩ := Scientific.stripZeros_spec 20 hdigits
  rw [hshortest, hvalue]
  exact ⟨hpos, hreads⟩

theorem shortest_of_mantissa_eq_zero (ties : TieRule) {x : Float}
    (hm : (Binary.ofFloat x).mantissa = 0) : shortest ties x = ⟨0, 0⟩ := by
  simp only [shortest, hm, if_true]

theorem eq_zero_of_mantissa_eq_zero {x : Float} (hm : (Binary.ofFloat x).mantissa = 0) :
    x = if isNegative x then -0.0 else 0.0 := by
  have hbits := bits_eq x
  have hfields : field x = 0 ∧ x.toBits.toNat % leadingBit = 0 := by
    rw [(ofFloat_eq x).1] at hm
    split at hm
    · exact ⟨‹_›, hm⟩
    · exact absurd (Nat.eq_zero_of_add_eq_zero_right hm) (by decide)
  rw [hfields.1, hfields.2] at hbits
  unfold Double.sign at hbits
  have hzero : (0.0 : Float).toBits.toNat = 0 := by decide +kernel
  have hminus : (-0.0 : Float).toBits.toNat = 2 ^ 63 := by decide +kernel
  split <;> rename_i hsign
  · rw [if_pos hsign] at hbits
    exact Float.toBits_inj.mp (UInt64.toNat_inj.mp (hbits.trans hminus.symm))
  · rw [if_neg hsign] at hbits
    exact Float.toBits_inj.mp (UInt64.toNat_inj.mp (hbits.trans hzero.symm))

/-- A decimal that is worth as much as the shortest decimal of a double has this double,
but for the sign, as the nearest. -/
theorem nearest_of_value_eq {ties : TieRule} {x : Float} (hx : x.isFinite = true) {n : ℕ} {f : ℤ}
    (hvalue : (n : ℚ) * 10 ^ f = (shortest ties x).value) :
    (if isNegative x then -nearest n f else nearest n f) = x := by
  have hten : (10 : ℚ) ^ f ≠ 0 := by positivity
  rcases Nat.eq_zero_or_pos (Binary.ofFloat x).mantissa with hm | hm
  · have hn : n = 0 := by
      rw [shortest_of_mantissa_eq_zero ties hm, Scientific.value, Nat.cast_zero, zero_mul,
        mul_eq_zero, or_iff_left hten] at hvalue
      exact_mod_cast hvalue
    rw [hn, nearest_zero, ← eq_zero_of_mantissa_eq_zero hm]
  · obtain ⟨hcanonical, hmax⟩ := canonical_ofFloat hx hm
    obtain ⟨-, hreads⟩ := shortest_readsBack ties hx hm
    rw [← hvalue] at hreads
    have hn : 0 < n := by
      by_contra hzero
      have hpos := hreads.pos hm
      rw [Nat.eq_zero_of_not_pos hzero, Nat.cast_zero, zero_mul] at hpos
      exact lt_irrefl _ hpos
    have hpack := pack_ofFloat hx hm
    rw [nearest_of_readsBack hn hcanonical hmax hreads]
    unfold Double.sign at hpack
    split
    · rename_i hnegative
      rw [if_pos hnegative] at hpack
      change Float.ofModel (.pack (Float.Model.UnpackedFloat.neg
        (Float.Model.pack (.finite .positive _ _ hm)).unpack)) = x
      rw [unpack_pack_finite hcanonical hmax]
      exact hpack
    · rename_i hpositive
      rw [if_neg hpositive] at hpack
      exact hpack

end Vigil.Decimal
