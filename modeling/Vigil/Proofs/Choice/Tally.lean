import Vigil.Proofs.Choice.Histogram
import Vigil.Proofs.Decimal.Whole

/-!
# Counting in range

A histogram is counted in place, one score after the other.  Here every step is checked
before it is taken, and the indices are written down: there have to be bins, and a count
at the index of the score.  No step fails, whatever the scores are.  They need not even
be numbers, since the cap keeps every index in range.
-/

namespace Vigil.Diversity

/-- The counts so far, and the indices that were computed for them, in turn. -/
structure Tally where
  counts : Array ℕ
  indices : List ℕ
deriving DecidableEq, Repr

section Checked

variable {α : Type} [Scalar α] {bins : ℕ}

namespace Tally

def start (bins : ℕ) : Tally := ⟨Array.replicate bins 0, []⟩

/-- Counts a score in its bin, if there are bins and the index is in range. -/
def add? (bins : ℕ) (t : Tally) (score : α) : Option Tally :=
  let index := binIndex score bins
  if 0 < bins ∧ index < t.counts.size then
    some ⟨t.counts.modify index (· + 1), t.indices ++ [index]⟩
  else none

theorem add?_eq_some (hbins : 0 < bins) {t : Tally} (hsize : t.counts.size = bins) (score : α) :
    t.add? bins score = some ⟨t.counts.modify (binIndex score bins) (· + 1),
      t.indices ++ [binIndex score bins]⟩ := by
  have hindex : binIndex score bins < t.counts.size := by
    rw [hsize]
    exact binIndex_lt score hbins
  rw [add?, if_pos ⟨hbins, hindex⟩]

theorem foldlM_add?_eq_some (hbins : 0 < bins) {t : Tally} (hsize : t.counts.size = bins)
    (scores : List α) :
    scores.foldlM (add? bins) t =
      some ⟨scores.foldl (fun counts s => counts.modify (binIndex s bins) (· + 1)) t.counts,
        t.indices ++ scores.map (binIndex · bins)⟩ := by
  induction scores generalizing t with
  | nil => simp
  | cons s ss ih =>
      have hnext : (t.counts.modify (binIndex s bins) (· + 1)).size = bins := by
        rw [Array.size_modify, hsize]
      rw [List.foldlM_cons, add?_eq_some hbins hsize]
      refine (ih hnext).trans ?_
      simp

/-- The counting never fails, and ends with the histogram. -/
theorem foldlM_start (hbins : 0 < bins) (scores : List α) :
    scores.foldlM (add? bins) (start bins) =
      some ⟨histogram bins scores, scores.map (binIndex · bins)⟩ :=
  foldlM_add?_eq_some hbins Array.size_replicate scores

end Tally

/-- The diversity by checked steps, with the indices that were computed on the way. -/
def scoreDiversity? (scores : List α) (bins : ℕ) : Option (α × List ℕ) :=
  let ceiling := min scores.length bins
  if ceiling ≤ 1 then some (Scalar.zero, [])
  else do
    let t ← scores.foldlM (Tally.add? bins) (Tally.start bins)
    let shares := t.counts.toList.map fun (count : ℕ) => (count : α) / (scores.length : α)
    return (normalizedEntropy shares ceiling, t.indices)

theorem scoreDiversity?_eq_some (scores : List α) (bins : ℕ) :
    scoreDiversity? scores bins = some (scoreDiversity scores bins,
      if min scores.length bins ≤ 1 then [] else scores.map (binIndex · bins)) := by
  rw [scoreDiversity?, scoreDiversity]
  split
  · rfl
  · have hbins : 0 < bins := by omega
    rw [Tally.foldlM_start hbins]
    rfl

/-- The counts are as many as the bins, each that of its bin, and they add up to the number
of scores. -/
theorem histogram_complete (hbins : 0 < bins) (scores : List α) :
    (histogram bins scores).toList.sum = scores.length ∧
    (∀ i < bins, (histogram bins scores)[i]? =
      some (scores.countP fun s => binIndex s bins == i)) ∧
    (histogram bins scores).countP (0 < ·) ≤ min scores.length bins := by
  refine ⟨?_, ?_, ?_⟩
  · rw [toList_histogram, sum_countIn hbins]
  · intro i hi
    rw [← Array.getElem?_toList, toList_histogram, List.getElem?_map, List.getElem?_range hi]
    rfl
  · rw [countP_histogram]
    exact length_occupied_le hbins scores

end Checked

/-! ## Doubles -/

/-- What is no number goes to the first bin. -/
theorem binIndex_of_isNaN {x : Float} (h : x.isNaN = true) (bins : ℕ) : binIndex x bins = 0 := by
  rw [binIndex, Double.floor_eq_wholePart, Double.unpack_mul_of_isNaN h]
  exact Nat.zero_min _

/-- Doubles of every kind are counted in range.  The conversion of a double to an index is
cut off at zero and at sixty-four bits, and sends what is no number to zero. With bins the
counting never fails, and yields the number of scores in every bin; of these numbers, which
add up to that of all scores, no more are positive than there are scores or bins.  The
diversity computes no index out of range, and none at all without bins. -/
theorem histogram_in_range (scores : List Float) (bins : ℕ) :
    (∀ x : Float, Scalar.floor x = Double.wholePart x.toModel.unpack ∧
      (x.isNaN = true → binIndex x bins = 0)) ∧
    (0 < bins →
      (∀ x : Float, binIndex x bins < bins) ∧
      scores.foldlM (Tally.add? bins) (Tally.start bins) =
        some ⟨histogram bins scores, scores.map (binIndex · bins)⟩ ∧
      (histogram bins scores).size = bins ∧
      (histogram bins scores).toList.sum = scores.length ∧
      (∀ i < bins, (histogram bins scores)[i]? =
        some (scores.countP fun s => binIndex s bins == i)) ∧
      (histogram bins scores).countP (0 < ·) ≤ min scores.length bins) ∧
    ∃ indices, scoreDiversity? scores bins = some (scoreDiversity scores bins, indices) ∧
      (∀ i ∈ indices, i < bins) ∧ (bins = 0 → indices = []) := by
  refine ⟨fun x => ⟨Double.floor_eq_wholePart x, fun h => binIndex_of_isNaN h bins⟩, ?_, ?_⟩
  · intro hbins
    exact ⟨fun x => binIndex_lt x hbins, Tally.foldlM_start hbins scores,
      size_histogram bins scores, histogram_complete hbins scores⟩
  · refine ⟨_, scoreDiversity?_eq_some scores bins, ?_, ?_⟩
    · intro i hi
      split at hi
      · cases hi
      · obtain ⟨s, -, rfl⟩ := List.mem_map.mp hi
        exact binIndex_lt s (by omega)
    · rintro rfl
      exact if_pos (by omega)

/-- No number, both infinities, a negative number, a great one, and one in the middle. -/
def everyKind : List Float := [0 / 0, 1 / 0, -1 / 0, -3, 1e300, 0.5]

theorem histogram_in_range_everyKind :
    0 < 4 ∧ (0 / 0 : Float).isNaN = true ∧ binIndex (0 / 0 : Float) 4 = 0 ∧
    histogram 4 everyKind = #[3, 0, 1, 2] ∧ (histogram 4 everyKind).toList.sum = 6 ∧
    scoreDiversity? everyKind 0 = some (scoreDiversity everyKind 0, []) := by
  have hnan : (0 / 0 : Float).isNaN = true := by decide
  obtain ⟨hconvert, hcounts, -⟩ := histogram_in_range everyKind 4
  obtain ⟨-, -, -, hsum, -⟩ := hcounts (by decide)
  obtain ⟨-, -, indices, hchecked, -, hnone⟩ := histogram_in_range everyKind 0
  rw [hnone rfl] at hchecked
  exact ⟨by decide, hnan, (hconvert (0 / 0)).2 hnan, by decide +kernel, hsum, hchecked⟩

end Vigil.Diversity
