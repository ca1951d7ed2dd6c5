import Vigil.Proofs.Choice.Entropy
import Vigil.Proofs.Choice.Weights

/-!
# Evenness of weights

In exact numbers the entropy of a moral state is a function of its list of weights alone.
Neither their scale nor their order matters, nor which dimensions they belong to.  It is
zero if all the weight is in one place, and one if every dimension has the same weight.  A
dimension without weight adds nothing to the entropy and raises the ceiling it is held
against.
-/

namespace Vigil

namespace Diversity

variable {ws vs : List ℝ}

noncomputable def proportions (ws : List ℝ) : List ℝ := ws.map (· / ws.sum)

/-- The entropy of the proportions of some weights, relative to that of equal ones. -/
noncomputable def evenness (ws : List ℝ) : ℝ :=
  if 0 < ws.sum then normalizedEntropy (proportions ws) ws.length else 0

theorem normalizedEntropy_of_le_one (ps : List ℝ) {k : ℕ} (h : k ≤ 1) :
    normalizedEntropy ps k = 0 := by
  rw [normalizedEntropy, if_pos h, Scalar.zero_real]

theorem evenness_of_sum_pos (h : 0 < ws.sum) :
    evenness ws = normalizedEntropy (proportions ws) ws.length := by
  rw [evenness, if_pos h]

theorem evenness_of_length_le_one (h : ws.length ≤ 1) : evenness ws = 0 := by
  rw [evenness, normalizedEntropy_of_le_one _ h, ite_self]

theorem shannonEntropy_perm {ps qs : List ℝ} (h : ps.Perm qs) :
    shannonEntropy ps = shannonEntropy qs := by
  rw [shannonEntropy_real, shannonEntropy_real]
  exact ((h.filter _).map _).sum_eq

theorem normalizedEntropy_perm {ps qs : List ℝ} (h : ps.Perm qs) (k : ℕ) :
    normalizedEntropy ps k = normalizedEntropy qs k := by
  rw [normalizedEntropy, normalizedEntropy, shannonEntropy_perm h]

theorem evenness_perm (h : ws.Perm vs) : evenness ws = evenness vs := by
  have hproportions : (proportions ws).Perm (proportions vs) := by
    rw [proportions, proportions, h.sum_eq]
    exact h.map _
  rw [evenness, evenness, h.sum_eq, h.length_eq, normalizedEntropy_perm hproportions]

theorem evenness_scale {k : ℝ} (hk : 0 < k) (ws : List ℝ) :
    evenness (ws.map (k * ·)) = evenness ws := by
  have hsum : (ws.map (k * ·)).sum = k * ws.sum := by
    simpa using List.sum_map_mul_left ws id k
  have hproportions : proportions (ws.map (k * ·)) = proportions ws := by
    rw [proportions, proportions, hsum, List.map_map]
    exact List.map_congr_left fun w _ => mul_div_mul_left w ws.sum hk.ne'
  rw [evenness, evenness, hsum, hproportions, List.length_map]
  simp only [mul_pos_iff_of_pos_left hk]

section Weights

variable (hnonneg : ∀ w ∈ ws, 0 ≤ w)

include hnonneg

theorem sum_pos_iff_exists : 0 < ws.sum ↔ ∃ w ∈ ws, 0 < w := by
  constructor
  · intro hsum
    by_contra hnone
    push Not at hnone
    have hzero : ws.sum = 0 :=
      List.sum_eq_zero fun w hw => le_antisymm (hnone w hw) (hnonneg w hw)
    exact hsum.ne' hzero
  · rintro ⟨w, hw, hpos⟩
    exact hpos.trans_le (List.single_le_sum hnonneg w hw)

variable (hsum : 0 < ws.sum)

include hsum

theorem distribution_proportions : Distribution (proportions ws) :=
  distribution_map_div hnonneg hsum rfl

omit hnonneg in
theorem positives_proportions : positives (proportions ws) = (positives ws).map (· / ws.sum) :=
  positives_map_div hsum ws

omit hnonneg in
theorem length_positives_proportions :
    (positives (proportions ws)).length = (positives ws).length := by
  rw [positives_proportions hsum, List.length_map]

omit hnonneg in
theorem length_positives_proportions_le : (positives (proportions ws)).length ≤ ws.length := by
  rw [length_positives_proportions hsum]
  exact List.length_filter_le _ ws

/-- The ratio is in the unit interval by itself. -/
theorem evenness_eq_ratio (hlong : 2 ≤ ws.length) :
    evenness ws = shannonEntropy (proportions ws) / Real.log ws.length := by
  rw [evenness_of_sum_pos hsum, (distribution_proportions hnonneg hsum).normalizedEntropy_eq hlong
    (length_positives_proportions_le hsum)]

theorem evenness_mem_unit : 0 ≤ evenness ws ∧ evenness ws ≤ 1 := by
  have hdist := distribution_proportions hnonneg hsum
  rcases Nat.lt_or_ge 1 ws.length with hlong | hshort
  · have hlog : 0 < Real.log ws.length := Distribution.log_ceiling_pos hlong
    rw [evenness_eq_ratio hnonneg hsum hlong]
    exact ⟨div_nonneg hdist.shannonEntropy_nonneg hlog.le, (div_le_one hlog).mpr
      (hdist.shannonEntropy_le_ceiling (length_positives_proportions_le hsum))⟩
  · rw [evenness_of_length_le_one hshort]
    exact ⟨le_rfl, zero_le_one⟩

theorem evenness_eq_zero_iff : evenness ws = 0 ↔ (positives ws).length = 1 := by
  have hdist := distribution_proportions hnonneg hsum
  have hle := length_positives_proportions_le hsum
  rw [← length_positives_proportions hsum]
  rcases Nat.lt_or_ge 1 ws.length with hlong | hshort
  · rw [evenness_of_sum_pos hsum, hdist.normalizedEntropy_eq_zero_iff hlong hle]
  · have hone := hdist.length_positives_pos
    exact iff_of_true (evenness_of_length_le_one hshort) (by omega)

theorem evenness_eq_one_iff :
    evenness ws = 1 ↔ 2 ≤ ws.length ∧ ∀ v ∈ ws, ∀ w ∈ ws, v = w := by
  have hdist := distribution_proportions hnonneg hsum
  have hle := length_positives_proportions_le hsum
  rcases Nat.lt_or_ge 1 ws.length with hlong | hshort
  · rw [and_iff_right (Nat.succ_le_of_lt hlong), evenness_of_sum_pos hsum,
      hdist.normalizedEntropy_eq_one_iff hlong hle, length_positives_proportions hsum,
      positives_proportions hsum]
    simp only [List.forall_mem_map, div_left_inj' hsum.ne']
    constructor
    · rintro ⟨hall, hequal⟩
      have hpositive : positives ws = ws := List.filter_eq_self.mpr
        (List.length_filter_eq_length_iff.mp hall)
      rwa [hpositive] at hequal
    · intro hequal
      obtain ⟨w, hw, hpos⟩ := (sum_pos_iff_exists hnonneg).mp hsum
      have hpositive : positives ws = ws :=
        List.filter_eq_self.mpr fun v hv => by simpa [hequal v hv w hw] using hpos
      rw [hpositive]
      exact ⟨rfl, hequal⟩
  · rw [evenness_of_length_le_one hshort]
    exact iff_of_false zero_ne_one fun h => absurd h.1 (by omega)

omit hsum in
/-- A weight of zero leaves the entropy as it is and raises the ceiling. -/
theorem evenness_zero_cons_le : evenness (0 :: ws) ≤ evenness ws := by
  have hsum' : (0 :: ws).sum = ws.sum := by simp
  by_cases hsum : 0 < ws.sum
  · have hnonneg' : ∀ w ∈ 0 :: ws, (0 : ℝ) ≤ w := List.forall_mem_cons.mpr ⟨le_rfl, hnonneg⟩
    have hpositives : positives (0 :: ws) = positives ws := List.filter_cons_of_neg (by simp)
    rcases Nat.lt_or_ge 1 ws.length with hlong | hshort
    · have hlog : 0 < Real.log ws.length := Distribution.log_ceiling_pos hlong
      have hsame : shannonEntropy (proportions (0 :: ws)) = shannonEntropy (proportions ws) := by
        rw [shannonEntropy_real, shannonEntropy_real, positives_proportions (hsum'.symm ▸ hsum),
          positives_proportions hsum, hpositives, hsum']
      have hceiling : Real.log ws.length ≤ Real.log (0 :: ws).length :=
        Real.log_le_log (Nat.cast_pos.mpr (by omega)) (Nat.cast_le.mpr (Nat.le_succ _))
      rw [evenness_eq_ratio hnonneg hsum hlong,
        evenness_eq_ratio hnonneg' (hsum'.symm ▸ hsum) (by simp; omega), hsame]
      exact div_le_div_of_nonneg_left
        (distribution_proportions hnonneg hsum).shannonEntropy_nonneg hlog hceiling
    · -- A single weight is all of the sum, also beside one of zero.
      have hone : (positives ws).length = 1 :=
        (evenness_eq_zero_iff hnonneg hsum).mp (evenness_of_length_le_one hshort)
      have hzero : evenness (0 :: ws) = 0 :=
        (evenness_eq_zero_iff hnonneg' (hsum'.symm ▸ hsum)).mpr (hpositives.symm ▸ hone)
      rw [hzero, evenness_of_length_le_one hshort]
  · rw [evenness, evenness, hsum', if_neg hsum, if_neg hsum]

end Weights

end Diversity

namespace MoralState

open Diversity

variable {m : MoralState ℝ}

theorem total_real (m : MoralState ℝ) : m.total = m.weights.values.sum := Scalar.sum_real _

theorem isWeight_real_iff (w : ℝ) : IsWeight w ↔ 0 ≤ w := by
  simp [IsWeight]

theorem IsValid.nonneg (hm : m.IsValid) : ∀ w ∈ m.weights.values, 0 ≤ w :=
  fun w hw => (isWeight_real_iff w).mp (hm w hw)

theorem length_values (m : MoralState ℝ) : m.weights.values.length = m.weights.size := by
  simp [Dictionary.size, Dictionary.values]

theorem values_normalized (h : 0 < m.weights.values.sum) :
    m.normalized.values = proportions m.weights.values := by
  rw [normalized, Dictionary.values_map, total_real, Scalar.zero_real]
  simp only [if_pos h]
  rfl

theorem values_normalized_of_not_pos (h : ¬ 0 < m.weights.values.sum) :
    m.normalized.values = m.weights.values.map fun _ => 0 := by
  rw [normalized, Dictionary.values_map, total_real, Scalar.zero_real]
  simp only [if_neg h]

/-- The entropy depends on the list of weights only. -/
theorem entropy_eq_evenness (m : MoralState ℝ) : m.entropy = evenness m.weights.values := by
  rw [entropy, total_real, Scalar.zero_real]
  by_cases h : 0 < m.weights.values.sum
  · rw [if_neg (not_le.mpr h), evenness_of_sum_pos h, values_normalized h, length_values]
  · rw [if_pos (not_lt.mp h), evenness, if_neg h]

theorem find?_normalized (h : 0 < m.weights.values.sum) (dimension : String) :
    m.normalized.find? dimension =
      (m.weights.find? dimension).map ((m.weights.values.sum)⁻¹ * ·) := by
  rw [normalized, Dictionary.find?_map, total_real, Scalar.zero_real]
  simp only [if_pos h, div_eq_inv_mul]

/-- The state with all weights multiplied. -/
noncomputable def scale (k : ℝ) (m : MoralState ℝ) : MoralState ℝ := ⟨m.weights.map (k * ·)⟩

theorem entropy_scale {k : ℝ} (hk : 0 < k) (m : MoralState ℝ) :
    (m.scale k).entropy = m.entropy := by
  rw [entropy_eq_evenness, entropy_eq_evenness, scale, Dictionary.values_map, evenness_scale hk]

theorem exists_renamed (hm : m.IsValid) {f : String → String}
    (hf : Set.InjOn f {dimension | dimension ∈ m.weights.names}) :
    ∃ m', ofWeights (m.weights.entries.map fun e => (f e.1, e.2)) = .ok m' ∧
      m'.entropy = m.entropy := by
  have hvalid : ∀ p ∈ m.weights.entries.map fun e => (f e.1, e.2), IsWeight p.2 :=
    List.forall_mem_map.mpr fun e he => hm e.2 (List.mem_map_of_mem he)
  have hnodup : ((m.weights.entries.map fun e => (f e.1, e.2)).map (·.1)).Nodup := by
    have hnames : (m.weights.names.map f).Nodup :=
      m.weights.nodup_names.map_on fun x hx y hy => hf hx hy
    rw [Dictionary.names, List.map_map] at hnames
    rw [List.map_map]
    exact hnames
  obtain ⟨m', hm', -⟩ := ofWeights_of_valid hvalid
  have hvalues : m'.weights.values.Perm m.weights.values := by
    have hentries := (entries_perm_of_nodup hnodup hm').map (·.2)
    rw [List.map_map] at hentries
    exact hentries
  exact ⟨m', hm', by rw [entropy_eq_evenness, entropy_eq_evenness, evenness_perm hvalues]⟩

theorem entropy_insert_zero_le (hm : m.IsValid) {dimension : String}
    (h : m.weights.find? dimension = none) :
    entropy ⟨m.weights.insert dimension 0⟩ ≤ m.entropy := by
  have hvalues : (m.weights.insert dimension 0).values.Perm (0 :: m.weights.values) := by
    rw [Dictionary.values, Dictionary.values]
    exact (Dictionary.entries_insert_perm h 0).map Prod.snd
  rw [entropy_eq_evenness, entropy_eq_evenness, evenness_perm hvalues]
  exact evenness_zero_cons_le hm.nonneg

/-- The entropy of weights that are exact measures how evenly they are spread, and nothing
else.  With a positive weight the shares are the weights over their sum, the entropy is in
the unit interval without being clamped, zero for one positive weight, and one for equal
weights of two dimensions or more.  Without one all is zero.  Multiplying the weights or
renaming their dimensions does not change the entropy, and one more dimension without
weight does not raise it. -/
theorem entropy_measures_evenness (m : MoralState ℝ) (hm : m.IsValid) :
    m.normalized.names = m.weights.names ∧
    ((∃ w ∈ m.weights.values, 0 < w) →
      ((∀ p ∈ m.normalized.values, 0 ≤ p) ∧ m.normalized.values.sum = 1 ∧
        ∃ k, 0 < k ∧ ∀ dimension,
          m.normalized.find? dimension = (m.weights.find? dimension).map (k * ·)) ∧
      (0 ≤ m.entropy ∧ m.entropy ≤ 1) ∧
      (2 ≤ m.weights.size →
        m.entropy = shannonEntropy m.normalized.values / Real.log m.weights.size) ∧
      (m.entropy = 0 ↔ ∃! dimension, ∃ w, m.weights.find? dimension = some w ∧ 0 < w) ∧
      (m.entropy = 1 ↔
        2 ≤ m.weights.size ∧ ∀ v ∈ m.weights.values, ∀ w ∈ m.weights.values, v = w)) ∧
    ((¬ ∃ w ∈ m.weights.values, 0 < w) →
      (∀ p ∈ m.normalized.values, p = 0) ∧ m.entropy = 0) ∧
    (∀ k, 0 < k → (m.scale k).entropy = m.entropy) ∧
    (∀ f : String → String, Set.InjOn f {dimension | dimension ∈ m.weights.names} →
      ∃ m', ofWeights (m.weights.entries.map fun e => (f e.1, e.2)) = .ok m' ∧
        m'.entropy = m.entropy) ∧
    (∀ dimension, m.weights.find? dimension = none →
      entropy ⟨m.weights.insert dimension 0⟩ ≤ m.entropy) := by
  refine ⟨names_normalized m, fun hsome => ?_, fun hnone => ?_, fun k hk => entropy_scale hk m,
    fun f hf => exists_renamed hm hf, fun dimension h => entropy_insert_zero_le hm h⟩
  · have hsum : 0 < m.weights.values.sum := (sum_pos_iff_exists hm.nonneg).mpr hsome
    have hdist := distribution_proportions hm.nonneg hsum
    rw [entropy_eq_evenness, values_normalized hsum, ← length_values]
    refine ⟨⟨hdist.nonneg, hdist.sum_eq_one, (m.weights.values.sum)⁻¹, inv_pos.mpr hsum,
      find?_normalized hsum⟩, evenness_mem_unit hm.nonneg hsum, evenness_eq_ratio hm.nonneg hsum,
      ?_, evenness_eq_one_iff hm.nonneg hsum⟩
    rw [evenness_eq_zero_iff hm.nonneg hsum, positives, Dictionary.length_filter_eq_one_iff]
    simp only [decide_eq_true_eq]
  · have hsum : ¬ 0 < m.weights.values.sum := mt (sum_pos_iff_exists hm.nonneg).mp hnone
    rw [entropy_eq_evenness, evenness, if_neg hsum, values_normalized_of_not_pos hsum]
    exact ⟨List.forall_mem_map.mpr fun _ _ => rfl, rfl⟩

/-- Two dimensions of the same weight, which may be any. -/
noncomputable def balanced : MoralState ℝ :=
  ⟨⟨[("autonomy", 3), ("care", 3)], List.pairwise_pair.mpr (by decide)⟩⟩

theorem entropy_measures_evenness_balanced :
    balanced.IsValid ∧ balanced.entropy = 1 ∧ (balanced.scale 2).entropy = balanced.entropy ∧
    entropy ⟨balanced.weights.insert "duty" 0⟩ ≤ balanced.entropy := by
  have hvalid : balanced.IsValid := by
    intro w hw
    rw [isWeight_real_iff]
    have hthree : w = 3 := by simpa [balanced, Dictionary.values] using hw
    rw [hthree]
    norm_num
  obtain ⟨-, hsome, -, hscale, -, hinsert⟩ := entropy_measures_evenness balanced hvalid
  obtain ⟨-, -, -, -, hone⟩ := hsome ⟨3, List.mem_cons_self, by norm_num⟩
  refine ⟨hvalid, hone.mpr ⟨Nat.le_refl 2, ?_⟩, hscale 2 (by norm_num), hinsert "duty" ?_⟩
  · simp [balanced, Dictionary.values]
  · simp [balanced, Dictionary.find?]

end MoralState

end Vigil
