import Mathlib.Algebra.Order.Floor.Semifield
import Vigil.Proofs.Choice.Entropy
import Vigil.Proofs.Choice.Histogram

/-!
# The extremes of diversity

The scores cannot occupy more bins than there are scores, or bins, and so the logarithm of
the lesser number bounds the entropy of their fractions.  In exact numbers the diversity
is the ratio of the two as it stands.  It is zero for scores of one bin, and one for
scores that occupy as many bins as they can and fill them equally.
-/

namespace Vigil.Diversity

variable {bins : ℕ} {scores : List ℝ}

theorem binIndex_real (s : ℝ) (bins : ℕ) : binIndex s bins = min ⌊s * bins⌋₊ (bins - 1) := rfl

/-- The fraction of the scores that each bin holds. -/
noncomputable def fractions (bins : ℕ) (scores : List ℝ) : List ℝ :=
  (List.range bins).map fun i => (countIn bins scores i : ℝ) / (scores.length : ℝ)

theorem shares_eq_fractions (bins : ℕ) (scores : List ℝ) :
    shares bins scores = fractions bins scores := by
  rw [shares, toList_histogram, List.map_map]
  rfl

theorem sum_countIn_cast (hbins : 0 < bins) (scores : List ℝ) :
    ((List.range bins).map fun i => (countIn bins scores i : ℝ)).sum = scores.length := by
  rw [← sum_countIn hbins scores, Nat.cast_list_sum, List.map_map]
  rfl

theorem fractions_eq_map_div (bins : ℕ) (scores : List ℝ) :
    fractions bins scores = ((List.range bins).map fun i => (countIn bins scores i : ℝ)).map
      (· / (scores.length : ℝ)) := by
  rw [fractions, List.map_map]
  rfl

theorem distribution_fractions (hsome : scores ≠ []) (hbins : 0 < bins) :
    Distribution (fractions bins scores) := by
  have hlength : (0 : ℝ) < scores.length := Nat.cast_pos.mpr (List.length_pos_iff.mpr hsome)
  rw [fractions_eq_map_div]
  exact distribution_map_div (List.forall_mem_map.mpr fun i _ => Nat.cast_nonneg _) hlength
    (sum_countIn_cast hbins scores)

theorem positives_fractions (hsome : scores ≠ []) :
    positives (fractions bins scores) =
      (occupied bins scores).map fun i => (countIn bins scores i : ℝ) / (scores.length : ℝ) := by
  have hlength : (0 : ℝ) < scores.length := Nat.cast_pos.mpr (List.length_pos_iff.mpr hsome)
  have hoccupied : positives ((List.range bins).map fun i => (countIn bins scores i : ℝ)) =
      (occupied bins scores).map fun i => (countIn bins scores i : ℝ) := by
    simp only [positives, occupied, List.filter_map, Function.comp_def, Nat.cast_pos]
  rw [fractions_eq_map_div, positives_map_div hlength, hoccupied, List.map_map]
  rfl

theorem length_positives_fractions (hsome : scores ≠ []) :
    (positives (fractions bins scores)).length = (occupied bins scores).length := by
  rw [positives_fractions hsome, List.length_map]

theorem equal_fractions_iff_level (hsome : scores ≠ []) :
    (∀ p ∈ positives (fractions bins scores), ∀ q ∈ positives (fractions bins scores), p = q) ↔
      Level bins scores := by
  have hlength : (scores.length : ℝ) ≠ 0 :=
    Nat.cast_ne_zero.mpr (mt List.length_eq_zero_iff.mp hsome)
  rw [positives_fractions hsome]
  simp only [List.forall_mem_map, div_left_inj' hlength, Nat.cast_inj]
  rfl

section Ceiling

variable (hscores : 2 ≤ scores.length) (hbins : 2 ≤ bins)

include hscores

theorem ne_nil_of_two_le : scores ≠ [] := by
  rintro rfl
  simp at hscores

include hbins

theorem two_le_ceiling : 2 ≤ min scores.length bins :=
  Nat.le_min.mpr ⟨hscores, hbins⟩

theorem distribution_of_two_le : Distribution (fractions bins scores) :=
  distribution_fractions (ne_nil_of_two_le hscores) (by omega)

theorem length_positives_le_ceiling :
    (positives (fractions bins scores)).length ≤ min scores.length bins := by
  rw [length_positives_fractions (ne_nil_of_two_le hscores)]
  exact length_occupied_le (by omega) scores

theorem scoreDiversity_eq_normalizedEntropy :
    scoreDiversity scores bins =
      normalizedEntropy (fractions bins scores) (min scores.length bins) := by
  have hceiling := two_le_ceiling hscores hbins
  rw [scoreDiversity, if_neg (by omega), shares_eq_fractions]

theorem scoreDiversity_eq_zero_iff :
    scoreDiversity scores bins = 0 ↔ ∃ i, ∀ s ∈ scores, binIndex s bins = i := by
  have hsome := ne_nil_of_two_le hscores
  rw [scoreDiversity_eq_normalizedEntropy hscores hbins,
    (distribution_of_two_le hscores hbins).normalizedEntropy_eq_zero_iff
      (two_le_ceiling hscores hbins) (length_positives_le_ceiling hscores hbins),
    length_positives_fractions hsome, length_occupied_eq_one_iff (by omega) hsome]

theorem scoreDiversity_eq_one_iff :
    scoreDiversity scores bins = 1 ↔
      (occupied bins scores).length = min scores.length bins ∧ Level bins scores := by
  have hsome := ne_nil_of_two_le hscores
  rw [scoreDiversity_eq_normalizedEntropy hscores hbins,
    (distribution_of_two_le hscores hbins).normalizedEntropy_eq_one_iff
      (two_le_ceiling hscores hbins) (length_positives_le_ceiling hscores hbins),
    length_positives_fractions hsome, equal_fractions_iff_level hsome]

/-- With bins to spare, the scores of greatest diversity have a bin each. -/
theorem scoreDiversity_eq_one_iff_nodup (hle : scores.length ≤ bins) :
    scoreDiversity scores bins = 1 ↔ (scores.map (binIndex · bins)).Nodup := by
  have hpos : 0 < bins := by omega
  rw [scoreDiversity_eq_one_iff hscores hbins, Nat.min_eq_left hle,
    length_occupied_eq_length_iff hpos]
  exact and_iff_left_of_imp (level_of_nodup hpos)

end Ceiling

theorem scoreDiversity_of_ceiling_le_one (h : min scores.length bins ≤ 1) :
    scoreDiversity scores bins = 0 := by
  rw [scoreDiversity, if_pos h, Scalar.zero_real]

/-- The entropy of the fractions lies between zero and the logarithm of the ceiling, so
that their ratio is the diversity without being clamped; the two bounds are reached by
scores of one bin, and by scores that fill as many bins as they can equally. -/
theorem scoreDiversity_between_extremes (scores : List ℝ) (bins : ℕ) :
    (2 ≤ scores.length → 2 ≤ bins →
      0 ≤ shannonEntropy (fractions bins scores) ∧
      shannonEntropy (fractions bins scores) ≤ Real.log (min scores.length bins : ℕ) ∧
      scoreDiversity scores bins =
        shannonEntropy (fractions bins scores) / Real.log (min scores.length bins : ℕ) ∧
      (scoreDiversity scores bins = 0 ↔ ∃ i, ∀ s ∈ scores, binIndex s bins = i) ∧
      (scoreDiversity scores bins = 1 ↔
        (occupied bins scores).length = min scores.length bins ∧ Level bins scores) ∧
      (scores.length ≤ bins →
        (scoreDiversity scores bins = 1 ↔ (scores.map (binIndex · bins)).Nodup))) ∧
    (scores.length ≤ 1 ∨ bins ≤ 1 → scoreDiversity scores bins = 0) := by
  constructor
  · intro hscores hbins
    have hdist := distribution_of_two_le hscores hbins
    have hle := length_positives_le_ceiling hscores hbins
    refine ⟨hdist.shannonEntropy_nonneg, hdist.shannonEntropy_le_ceiling hle, ?_,
      scoreDiversity_eq_zero_iff hscores hbins, scoreDiversity_eq_one_iff hscores hbins,
      scoreDiversity_eq_one_iff_nodup hscores hbins⟩
    rw [scoreDiversity_eq_normalizedEntropy hscores hbins,
      hdist.normalizedEntropy_eq (two_le_ceiling hscores hbins) hle]
  · intro hfew
    exact scoreDiversity_of_ceiling_le_one (by omega)

/-- Three scores in three bins, three scores in one bin, and a score by itself. -/
theorem scoreDiversity_between_extremes_of_three :
    scoreDiversity [0.75, 0.8, 0.95] 10 = (1 : ℝ) ∧
    scoreDiversity [0.81, 0.82, 0.83] 10 = (0 : ℝ) ∧
    scoreDiversity [0.5] 10 = (0 : ℝ) := by
  have hspread : (([0.75, 0.8, 0.95] : List ℝ).map (binIndex · 10)) = [7, 8, 9] := by
    simp only [List.map_cons, List.map_nil, binIndex_real]
    norm_num
  have hclose : ∀ s ∈ ([0.81, 0.82, 0.83] : List ℝ), binIndex s 10 = 8 := by
    simp only [List.forall_mem_cons, binIndex_real]
    norm_num
  obtain ⟨-, -, -, -, -, hone⟩ :=
    (scoreDiversity_between_extremes [0.75, 0.8, 0.95] 10).1 (by simp) (by omega)
  obtain ⟨-, -, -, hzero, -, -⟩ :=
    (scoreDiversity_between_extremes [0.81, 0.82, 0.83] 10).1 (by simp) (by omega)
  refine ⟨(hone (by simp)).mpr ?_, hzero.mpr ⟨8, hclose⟩, ?_⟩
  · rw [hspread]
    decide
  · exact (scoreDiversity_between_extremes [0.5] 10).2 (Or.inl (by simp))

end Vigil.Diversity
