import Mathlib.Algebra.Order.BigOperators.Group.List
import Mathlib.Algebra.Order.Ring.Nat
import Mathlib.Data.List.Dedup
import Vigil.Choice.Diversity

/-!
# The counts of a histogram

A histogram says of every bin how many scores lie in it.  The counts add up to the number
of scores, and at most so many bins are occupied as there are scores, or bins.
-/

namespace Vigil.Diversity

theorem getElem?_foldl_modify {β : Type} (f : β → ℕ) (bs : List β) (counts : Array ℕ) (i : ℕ) :
    (bs.foldl (fun counts b => counts.modify (f b) (· + 1)) counts)[i]? =
      counts[i]?.map (· + bs.countP (f · == i)) := by
  induction bs generalizing counts with
  | nil => simp
  | cons b bs ih =>
      rw [List.foldl_cons, ih, List.countP_cons, Array.getElem?_modify]
      by_cases hi : f b = i
      · simp [hi, Function.comp_def, Nat.add_assoc, Nat.add_comm 1]
      · simp [hi]

variable {α : Type} [Scalar α] {bins : ℕ} {scores : List α}

/-- The number of scores in a bin. -/
def countIn (bins : ℕ) (scores : List α) (i : ℕ) : ℕ :=
  scores.countP fun s => binIndex s bins == i

theorem countIn_cons (s : α) (i : ℕ) : countIn bins (s :: scores) i =
    countIn bins scores i + if binIndex s bins = i then 1 else 0 := by
  simp [countIn, List.countP_cons]

theorem toList_histogram (bins : ℕ) (scores : List α) :
    (histogram bins scores).toList = (List.range bins).map (countIn bins scores) := by
  apply List.ext_getElem?
  intro i
  rw [Array.getElem?_toList, histogram, getElem?_foldl_modify]
  by_cases hi : i < bins <;> simp [hi, countIn]

theorem sum_countIn (h : 0 < bins) (scores : List α) :
    ((List.range bins).map (countIn bins scores)).sum = scores.length := by
  induction scores with
  | nil => simp [show countIn bins ([] : List α) = fun _ => 0 from rfl]
  | cons s ss ih =>
      have hcons : countIn bins (s :: ss) =
          fun i => countIn bins ss i + if binIndex s bins = i then 1 else 0 :=
        funext (countIn_cons s)
      -- The score is counted in one bin, and in none of the others.
      have hone :
          ((List.range bins).map fun i => if binIndex s bins = i then 1 else 0).sum = 1 := by
        rw [List.sum_map_eq_nsmul_single (binIndex s bins) _ fun i hi _ => if_neg hi.symm,
          List.count_eq_one_of_mem List.nodup_range (List.mem_range.mpr (binIndex_lt s h)),
          if_pos rfl, one_nsmul]
      rw [hcons, List.sum_map_add, ih, hone, List.length_cons]

theorem countIn_pos_iff {i : ℕ} :
    0 < countIn bins scores i ↔ ∃ s ∈ scores, binIndex s bins = i := by
  simp [countIn, List.countP_pos_iff]

/-! ## Occupied bins -/

/-- The bins that hold a score, ascending. -/
def occupied (bins : ℕ) (scores : List α) : List ℕ :=
  (List.range bins).filter fun i => decide (0 < countIn bins scores i)

theorem nodup_occupied (bins : ℕ) (scores : List α) : (occupied bins scores).Nodup :=
  List.nodup_range.filter _

/-- The occupied bins are the bins of the scores, each once. -/
theorem occupied_perm (h : 0 < bins) (scores : List α) :
    (occupied bins scores).Perm (scores.map (binIndex · bins)).dedup := by
  rw [List.perm_ext_iff_of_nodup (nodup_occupied bins scores) (List.nodup_dedup _)]
  intro i
  rw [List.mem_dedup, List.mem_map, ← countIn_pos_iff, occupied, List.mem_filter, List.mem_range,
    decide_eq_true_eq]
  refine and_iff_right_of_imp fun hpos => ?_
  obtain ⟨s, -, rfl⟩ := countIn_pos_iff.mp hpos
  exact binIndex_lt s h

theorem length_occupied_le (h : 0 < bins) (scores : List α) :
    (occupied bins scores).length ≤ min scores.length bins := by
  apply Nat.le_min.mpr
  constructor
  · rw [(occupied_perm h scores).length_eq]
    simpa using (List.dedup_sublist (scores.map (binIndex · bins))).length_le
  · simpa [occupied] using (List.filter_sublist (p := fun i =>
      decide (0 < countIn bins scores i)) (l := List.range bins)).length_le

theorem countP_histogram (bins : ℕ) (scores : List α) :
    (histogram bins scores).countP (0 < ·) = (occupied bins scores).length := by
  rw [← Array.countP_toList, toList_histogram, List.countP_map, List.countP_eq_length_filter]
  rfl

theorem mem_occupied {i : ℕ} (h : 0 < bins) :
    i ∈ occupied bins scores ↔ ∃ s ∈ scores, binIndex s bins = i := by
  rw [(occupied_perm h scores).mem_iff, List.mem_dedup, List.mem_map]

/-- All scores lie in one bin. -/
theorem length_occupied_eq_one_iff (h : 0 < bins) (hsome : scores ≠ []) :
    (occupied bins scores).length = 1 ↔ ∃ i, ∀ s ∈ scores, binIndex s bins = i := by
  constructor
  · intro hone
    obtain ⟨i, hi⟩ := List.length_eq_one_iff.mp hone
    refine ⟨i, fun s hs => ?_⟩
    have hmem : binIndex s bins ∈ occupied bins scores := (mem_occupied h).mpr ⟨s, hs, rfl⟩
    rw [hi] at hmem
    exact List.mem_singleton.mp hmem
  · rintro ⟨i, hi⟩
    have hbins : scores.map (binIndex · bins) = List.replicate scores.length i := by
      rw [← List.map_const', List.map_congr_left hi]
    rw [(occupied_perm h scores).length_eq, hbins,
      List.replicate_dedup (mt List.length_eq_zero_iff.mp hsome), List.length_singleton]

/-- All scores lie in different bins. -/
theorem length_occupied_eq_length_iff (h : 0 < bins) :
    (occupied bins scores).length = scores.length ↔ (scores.map (binIndex · bins)).Nodup := by
  rw [(occupied_perm h scores).length_eq, ← List.dedup_eq_self,
    ← (List.dedup_sublist (scores.map (binIndex · bins))).length_eq, List.length_map]

/-- All occupied bins hold equally many scores. -/
def Level (bins : ℕ) (scores : List α) : Prop :=
  ∀ i ∈ occupied bins scores, ∀ j ∈ occupied bins scores,
    countIn bins scores i = countIn bins scores j

theorem level_of_nodup (h : 0 < bins) (hnodup : (scores.map (binIndex · bins)).Nodup) :
    Level bins scores := by
  have hone : ∀ i ∈ occupied bins scores, countIn bins scores i = 1 := by
    intro i hi
    have hmem : i ∈ scores.map (binIndex · bins) := List.mem_map.mpr ((mem_occupied h).mp hi)
    rw [← List.count_eq_one_of_mem hnodup hmem, List.count, List.countP_map]
    rfl
  intro i hi j hj
  rw [hone i hi, hone j hj]

end Vigil.Diversity
