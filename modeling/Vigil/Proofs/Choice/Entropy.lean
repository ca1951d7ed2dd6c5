import Mathlib.Algebra.Order.BigOperators.Group.List
import Mathlib.Analysis.SpecialFunctions.Log.NegMulLog
import Vigil.Choice.Diversity
import Vigil.Proofs.Exact

/-!
# The entropy of shares

In exact numbers the entropy of shares that make up a whole lies between zero and the
logarithm of how many of them are positive.  It is zero if that is one, and reaches the
bound if the positive shares are equal.  The bound is Gibbs' inequality: every share is
weighed against the equal one, and the logarithm lies below its tangent at one and touches
it there only.
-/

namespace Vigil.Diversity

/-- Numbers that are not negative and add up to one. -/
structure Distribution (ps : List ℝ) : Prop where
  nonneg : ∀ p ∈ ps, 0 ≤ p
  sum_eq_one : ps.sum = 1

noncomputable def positives (ps : List ℝ) : List ℝ := ps.filter fun p => decide (0 < p)

theorem shannonEntropy_real (ps : List ℝ) :
    shannonEntropy ps = ((positives ps).map Real.negMulLog).sum := by
  rw [shannonEntropy, Scalar.sum_real, positives, Scalar.zero_real]
  rfl

theorem mem_positives {ps : List ℝ} {p : ℝ} : p ∈ positives ps ↔ p ∈ ps ∧ 0 < p := by
  simp [positives]

theorem sum_positives {ps : List ℝ} (h : ∀ p ∈ ps, 0 ≤ p) : (positives ps).sum = ps.sum := by
  induction ps with
  | nil => rfl
  | cons p ps ih =>
      obtain ⟨hp, hps⟩ := List.forall_mem_cons.mp h
      replace ih := ih hps
      unfold positives at ih ⊢
      rcases hp.lt_or_eq with hpos | hzero
      · rw [List.filter_cons_of_pos (by simpa using hpos), List.sum_cons, List.sum_cons, ih]
      · rw [List.filter_cons_of_neg (by simp [← hzero]), List.sum_cons, ih, ← hzero, zero_add]

theorem positives_map_div {k : ℝ} (hk : 0 < k) (ws : List ℝ) :
    positives (ws.map (· / k)) = (positives ws).map (· / k) := by
  rw [positives, List.filter_map, positives]
  congr 1
  apply List.filter_congr
  intro w _
  simp [div_pos_iff_of_pos_right hk]

/-- Numbers that are not negative, over their sum. -/
theorem distribution_map_div {ws : List ℝ} {k : ℝ} (hnonneg : ∀ w ∈ ws, 0 ≤ w) (hk : 0 < k)
    (hsum : ws.sum = k) : Distribution (ws.map (· / k)) := by
  constructor
  · intro p hp
    obtain ⟨w, hw, rfl⟩ := List.mem_map.mp hp
    exact div_nonneg (hnonneg w hw) hk.le
  · calc (ws.map (· / k)).sum
        = ws.sum / k := by simp only [div_eq_mul_inv, List.sum_map_mul_right, List.map_id']
      _ = 1 := by rw [hsum, div_self hk.ne']

/-! ## One share against the equal one -/

theorem negMulLog_eq {p m : ℝ} (hp : 0 < p) (hm : 0 < m) :
    Real.negMulLog p = p * Real.log m + p * Real.log (1 / (m * p)) := by
  rw [one_div, Real.log_inv, Real.log_mul hm.ne' hp.ne', Real.negMulLog]
  ring

theorem negMulLog_le {p m : ℝ} (hp : 0 < p) (hm : 0 < m) :
    Real.negMulLog p ≤ p * Real.log m + (1 / m - p) := by
  have hlog : Real.log (1 / (m * p)) ≤ 1 / (m * p) - 1 := Real.log_le_sub_one_of_pos (by positivity)
  calc Real.negMulLog p = p * Real.log m + p * Real.log (1 / (m * p)) := negMulLog_eq hp hm
    _ ≤ p * Real.log m + p * (1 / (m * p) - 1) := by gcongr
    _ = p * Real.log m + (1 / m - p) := by field_simp

theorem negMulLog_lt {p m : ℝ} (hp : 0 < p) (hm : 0 < m) (hne : p ≠ 1 / m) :
    Real.negMulLog p < p * Real.log m + (1 / m - p) := by
  have hx : 1 / (m * p) ≠ 1 := by
    intro heq
    rw [div_eq_one_iff_eq (by positivity)] at heq
    apply hne
    rw [eq_div_iff hm.ne', mul_comm]
    exact heq.symm
  have hlog : Real.log (1 / (m * p)) < 1 / (m * p) - 1 :=
    Real.log_lt_sub_one_of_pos (by positivity) hx
  calc Real.negMulLog p = p * Real.log m + p * Real.log (1 / (m * p)) := negMulLog_eq hp hm
    _ < p * Real.log m + p * (1 / (m * p) - 1) := by gcongr
    _ = p * Real.log m + (1 / m - p) := by field_simp

theorem sum_map_tangent (ps : List ℝ) (a b : ℝ) :
    (ps.map fun p => p * a + (b - p)).sum = ps.sum * a + (ps.length * b - ps.sum) := by
  induction ps with
  | nil => simp
  | cons p ps ih =>
      simp only [List.map_cons, List.sum_cons, List.length_cons, ih, Nat.cast_add, Nat.cast_one]
      ring

/-! ## All shares -/

namespace Distribution

variable {ps : List ℝ} (h : Distribution ps)

include h

theorem sum_positives_eq_one : (positives ps).sum = 1 :=
  (sum_positives h.nonneg).trans h.sum_eq_one

theorem length_positives_pos : 0 < (positives ps).length := by
  rw [List.length_pos_iff]
  intro hnil
  have hsum := h.sum_positives_eq_one
  rw [hnil] at hsum
  exact zero_ne_one hsum

theorem le_one {p : ℝ} (hp : p ∈ positives ps) : p ≤ 1 := by
  rw [← h.sum_positives_eq_one]
  exact List.single_le_sum (fun q hq => (mem_positives.mp hq).2.le) p hp

theorem negMulLog_nonneg {p : ℝ} (hp : p ∈ positives ps) : 0 ≤ Real.negMulLog p :=
  Real.negMulLog_nonneg (mem_positives.mp hp).2.le (h.le_one hp)

theorem shannonEntropy_nonneg : 0 ≤ shannonEntropy ps := by
  rw [shannonEntropy_real]
  apply List.sum_nonneg
  intro x hx
  obtain ⟨p, hp, rfl⟩ := List.mem_map.mp hx
  exact h.negMulLog_nonneg hp

/-- The tangents add up to the logarithm of the number of positive shares. -/
theorem sum_tangent :
    ((positives ps).map fun p => p * Real.log (positives ps).length +
      (1 / (positives ps).length - p)).sum = Real.log (positives ps).length := by
  have hpos : (0 : ℝ) < (positives ps).length := Nat.cast_pos.mpr h.length_positives_pos
  rw [sum_map_tangent, h.sum_positives_eq_one, mul_one_div_cancel hpos.ne']
  ring

theorem shannonEntropy_le : shannonEntropy ps ≤ Real.log (positives ps).length := by
  have hpos : (0 : ℝ) < (positives ps).length := Nat.cast_pos.mpr h.length_positives_pos
  rw [shannonEntropy_real, ← h.sum_tangent]
  exact List.sum_le_sum fun p hp => negMulLog_le (mem_positives.mp hp).2 hpos

theorem shannonEntropy_eq_iff :
    shannonEntropy ps = Real.log (positives ps).length ↔
      ∀ p ∈ positives ps, p = 1 / (positives ps).length := by
  have hpos : (0 : ℝ) < (positives ps).length := Nat.cast_pos.mpr h.length_positives_pos
  constructor
  · intro heq
    by_contra hne
    push Not at hne
    obtain ⟨p, hp, hne⟩ := hne
    have hlt : shannonEntropy ps < Real.log (positives ps).length := by
      rw [shannonEntropy_real, ← h.sum_tangent]
      exact List.sum_lt_sum _ _ (fun q hq => negMulLog_le (mem_positives.mp hq).2 hpos)
        ⟨p, hp, negMulLog_lt (mem_positives.mp hp).2 hpos hne⟩
    exact hlt.ne heq
  · intro hequal
    rw [shannonEntropy_real, ← h.sum_tangent]
    congr 1
    apply List.map_congr_left
    intro p hp
    rw [hequal p hp, Real.negMulLog, one_div, Real.log_inv]
    ring

/-- Equal shares are the equal share of the whole. -/
theorem forall_eq_equal_share_iff :
    (∀ p ∈ positives ps, p = 1 / (positives ps).length) ↔
      ∀ p ∈ positives ps, ∀ q ∈ positives ps, p = q := by
  constructor
  · intro hequal p hp q hq
    rw [hequal p hp, hequal q hq]
  · intro hequal p hp
    have hsum : (positives ps).length • p = 1 := by
      rw [← List.sum_eq_card_nsmul _ p fun q hq => hequal q hq p hp, h.sum_positives_eq_one]
    have hpos : (0 : ℝ) < (positives ps).length := Nat.cast_pos.mpr h.length_positives_pos
    rw [nsmul_eq_mul] at hsum
    rw [eq_div_iff hpos.ne', mul_comm]
    exact hsum

theorem shannonEntropy_eq_zero_iff : shannonEntropy ps = 0 ↔ (positives ps).length = 1 := by
  have hsum := h.sum_positives_eq_one
  have hnonneg : ∀ p ∈ positives ps, 0 ≤ Real.negMulLog p := fun p hp => h.negMulLog_nonneg hp
  have hpos : ∀ p ∈ positives ps, 0 < p := fun p hp => (mem_positives.mp hp).2
  rw [shannonEntropy_real]
  generalize positives ps = qs at *
  match qs with
  | [] => simp at hsum
  | [p] =>
      obtain rfl : p = 1 := by simpa using hsum
      simp
  | p :: q :: rest =>
      -- Another share is positive, so this one is less than the whole.
      obtain ⟨hp, hrest⟩ := List.forall_mem_cons.mp hpos
      obtain ⟨hnonneg', htail⟩ := List.forall_mem_cons.mp hnonneg
      have hlt : p < 1 := by
        have hothers : 0 < (q :: rest).sum := List.sum_pos _ hrest (List.cons_ne_nil q rest)
        rw [List.sum_cons] at hsum
        linarith
      have hhead : 0 < Real.negMulLog p := by
        have hlog : Real.log p < 0 := Real.log_neg hp hlt
        rw [Real.negMulLog]
        nlinarith
      have hall : 0 ≤ ((q :: rest).map Real.negMulLog).sum := by
        apply List.sum_nonneg
        intro x hx
        obtain ⟨r, hr, rfl⟩ := List.mem_map.mp hx
        exact htail r hr
      rw [List.map_cons, List.sum_cons]
      constructor
      · intro hzero
        linarith
      · intro hlength
        simp at hlength

section Ceiling

variable {k : ℕ} (hk : 2 ≤ k) (hle : (positives ps).length ≤ k)

include hk hle

omit hk in
theorem shannonEntropy_le_ceiling : shannonEntropy ps ≤ Real.log k :=
  h.shannonEntropy_le.trans
    (Real.log_le_log (Nat.cast_pos.mpr h.length_positives_pos) (Nat.cast_le.mpr hle))

omit h hle in
theorem log_ceiling_pos : 0 < Real.log k :=
  Real.log_pos (Nat.one_lt_cast.mpr hk)

/-- The ratio is in the unit interval by itself. -/
theorem normalizedEntropy_eq : normalizedEntropy ps k = shannonEntropy ps / Real.log k := by
  have hlog : 0 < Real.log k := log_ceiling_pos hk
  rw [normalizedEntropy, if_neg (by omega), Scalar.log_real]
  apply Scalar.clampUnit_of_mem
  · exact div_nonneg h.shannonEntropy_nonneg hlog.le
  · exact (div_le_one hlog).mpr (h.shannonEntropy_le_ceiling hle)

theorem normalizedEntropy_eq_zero_iff :
    normalizedEntropy ps k = 0 ↔ (positives ps).length = 1 := by
  rw [h.normalizedEntropy_eq hk hle, div_eq_zero_iff, or_iff_left (log_ceiling_pos hk).ne',
    h.shannonEntropy_eq_zero_iff]

theorem normalizedEntropy_eq_one_iff :
    normalizedEntropy ps k = 1 ↔
      (positives ps).length = k ∧ ∀ p ∈ positives ps, ∀ q ∈ positives ps, p = q := by
  rw [h.normalizedEntropy_eq hk hle, div_eq_one_iff_eq (log_ceiling_pos hk).ne',
    ← h.forall_eq_equal_share_iff, ← h.shannonEntropy_eq_iff]
  constructor
  · intro heq
    have hpos : (0 : ℝ) < (positives ps).length := Nat.cast_pos.mpr h.length_positives_pos
    have hlog : Real.log (positives ps).length = Real.log k := by
      apply le_antisymm
      · exact Real.log_le_log hpos (Nat.cast_le.mpr hle)
      · rw [← heq]
        exact h.shannonEntropy_le
    refine ⟨?_, heq.trans hlog.symm⟩
    have hkpos : (0 : ℝ) < k := hpos.trans_le (Nat.cast_le.mpr hle)
    exact Nat.cast_injective (Real.log_injOn_pos hpos hkpos hlog)
  · rintro ⟨hlength, heq⟩
    rw [heq, hlength]

end Ceiling

end Distribution

end Vigil.Diversity
