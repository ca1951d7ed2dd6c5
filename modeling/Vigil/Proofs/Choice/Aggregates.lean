import Mathlib.Algebra.Order.BigOperators.Group.List
import Mathlib.Data.Set.Finite.List
import Mathlib.Data.Set.List
import Mathlib.Order.Bounds.Defs
import Vigil.Proofs.Choice.Histogram
import Vigil.Proofs.Choice.Scores
import Vigil.Proofs.Exact

/-!
# Aggregates of scores

Scores are added and compared in the order of the actions, and counted by their bins.  If
sums are exact then the order does not matter to what comes out, and the mean lies between
the least score and the best one.  The diversity asks for nothing of the kind, as it sees
no more of the scores than how many are in each bin.
-/

namespace Vigil

namespace Diversity

variable {α : Type} [Scalar α] {bins : ℕ} {scores others : List α}

theorem countIn_eq_count (bins : ℕ) (scores : List α) (i : ℕ) :
    countIn bins scores i = (scores.map (binIndex · bins)).count i := by
  rw [List.count, List.countP_map]
  rfl

/-- Scores that are in the same bins, in whatever order, have the same diversity. -/
theorem scoreDiversity_congr
    (h : (scores.map (binIndex · bins)).Perm (others.map (binIndex · bins))) :
    scoreDiversity scores bins = scoreDiversity others bins := by
  have hlength : scores.length = others.length := by simpa using h.length_eq
  have hcounts : countIn bins scores = countIn bins others := by
    funext i
    rw [countIn_eq_count, countIn_eq_count, h.count_eq]
  have hshares : shares bins scores = shares bins others := by
    rw [shares, shares, toList_histogram, toList_histogram, hcounts, hlength]
  rw [scoreDiversity, scoreDiversity, hshares, hlength]

end Diversity

namespace Constraint

variable {α : Type} [Scalar α]

theorem greatest_concat (xs : List α) (x : α) :
    greatest (xs ++ [x]) = Scalar.max (greatest xs) x :=
  List.foldl_append

theorem greatest_eq_zero_or_mem (xs : List α) : greatest xs = Scalar.zero ∨ greatest xs ∈ xs := by
  induction xs using List.reverseRecOn with
  | nil => exact Or.inl rfl
  | append_singleton xs last ih =>
      rw [greatest_concat, Scalar.max]
      split_ifs
      · exact Or.inr (List.mem_append_right _ (List.mem_singleton_self last))
      · exact ih.imp_right (List.mem_append_left _)

end Constraint

namespace Scalar.Exact

variable {α : Type} [Scalar α] {value : α → ℝ} (exact : Exact value) {xs ys : List α}

include exact

open Constraint (mean greatest greatest_concat greatest_eq_zero_or_mem)

theorem mean (xs : List α) : value (mean xs) = (xs.map value).sum / xs.length := by
  rw [Constraint.mean, exact.div, exact.sum, exact.natCast]

theorem mean_perm (h : xs.Perm ys) : Constraint.mean xs = Constraint.mean ys := by
  rw [Constraint.mean, Constraint.mean, exact.sum_perm h, h.length_eq]

theorem greatest_perm (h : xs.Perm ys) : greatest xs = greatest ys := by
  apply h.foldl_eq'
  intro x _ y _ z
  apply exact.injective
  rw [exact.max, exact.max, exact.max, exact.max, max_right_comm]

theorem le_mean {least : α} (hne : xs ≠ []) (h : ∀ x ∈ xs, least ≤ x) :
    least ≤ Constraint.mean xs := by
  have hlength : (0 : ℝ) < xs.length := Nat.cast_pos.mpr (List.length_pos_iff.mpr hne)
  have hall : ∀ v ∈ xs.map value, value least ≤ v :=
    List.forall_mem_map.mpr fun x hx => (exact.le_iff least x).mp (h x hx)
  have hsum := List.card_nsmul_le_sum (xs.map value) (value least) hall
  rw [List.length_map, nsmul_eq_mul] at hsum
  rw [exact.le_iff, exact.mean, le_div_iff₀ hlength, mul_comm]
  exact hsum

theorem mean_le {most : α} (hne : xs ≠ []) (h : ∀ x ∈ xs, x ≤ most) :
    Constraint.mean xs ≤ most := by
  have hlength : (0 : ℝ) < xs.length := Nat.cast_pos.mpr (List.length_pos_iff.mpr hne)
  have hall : ∀ v ∈ xs.map value, v ≤ value most :=
    List.forall_mem_map.mpr fun x hx => (exact.le_iff x most).mp (h x hx)
  have hsum := List.sum_le_card_nsmul (xs.map value) (value most) hall
  rw [List.length_map, nsmul_eq_mul] at hsum
  rw [exact.le_iff, exact.mean, div_le_iff₀ hlength, mul_comm]
  exact hsum

theorem le_greatest {x : α} (h : x ∈ xs) : x ≤ greatest xs := by
  induction xs using List.reverseRecOn with
  | nil => cases h
  | append_singleton xs last ih =>
      rw [exact.le_iff, greatest_concat, exact.max]
      rcases List.mem_append.mp h with h | h
      · exact le_max_of_le_left ((exact.le_iff _ _).mp (ih h))
      · rw [List.mem_singleton.mp h]
        exact le_max_right _ _

/-- The maximum is taken from zero on, but no score is below that. -/
theorem greatest_mem (hne : xs ≠ []) (h : ∀ x ∈ xs, Scalar.zero ≤ x) : greatest xs ∈ xs := by
  rcases greatest_eq_zero_or_mem xs with hzero | hmem
  · obtain ⟨x, hx⟩ := List.exists_mem_of_ne_nil xs hne
    have hle : x ≤ Scalar.zero := hzero ▸ exact.le_greatest hx
    have heq : x = greatest xs := by
      rw [hzero]
      exact exact.injective (le_antisymm ((exact.le_iff _ _).mp hle)
        ((exact.le_iff _ _).mp (h x hx)))
    exact heq ▸ hx
  · exact hmem

theorem exists_least (hne : xs ≠ []) : ∃ least ∈ xs, ∀ x ∈ xs, least ≤ x := by
  obtain ⟨least, hmem, hleast⟩ := Set.exists_min_image {x | x ∈ xs} value
    (List.finite_toSet xs) (List.exists_mem_of_ne_nil xs hne)
  exact ⟨least, hmem, fun x hx => (exact.le_iff least x).mpr (hleast x hx)⟩

end Scalar.Exact

namespace Constraint

section Answers

variable {α A B : Type} {score : A → Except String α} {viable : A → Except String Bool}
  {actions : List A} {score' : B → Except String α} {viable' : B → Except String Bool}
  {others : List B}

/-- What an action would answer to the two questions about it. -/
def answers (score : A → Except String α) (viable : A → Except String Bool) (a : A) :
    Except String Bool × Except String α :=
  (viable a, score a)

theorem viableScores_eq_map_answers (score : A → Except String α)
    (viable : A → Except String Bool) (actions : List A) :
    viableScores score viable actions =
      ((actions.map (answers score viable)).filter fun q => affirms q.1).map (·.2) := by
  rw [viableScores, List.filter_map, List.map_map]
  rfl

theorem viableScores_perm
    (h : (others.map (answers score' viable')).Perm (actions.map (answers score viable))) :
    (viableScores score' viable' others).Perm (viableScores score viable actions) := by
  rw [viableScores_eq_map_answers, viableScores_eq_map_answers]
  exact (h.filter _).map _

theorem checked_of_perm
    (h : (others.map (answers score' viable')).Perm (actions.map (answers score viable)))
    (hchecked : ∀ a ∈ actions, ∃ answer, viable a = .ok answer) :
    ∀ b ∈ others, ∃ answer, viable' b = .ok answer := by
  intro b hb
  obtain ⟨a, ha, hsame⟩ := List.mem_map.mp (h.mem_iff.mp (List.mem_map_of_mem hb))
  obtain ⟨answer, hanswer⟩ := hchecked a ha
  exact ⟨answer, (congrArg Prod.fst hsame).symm.trans hanswer⟩

variable [Scalar α] {scores : List α}

namespace Scored

theorem mem_iff (h : Scored score viable actions scores) {x : α} :
    x ∈ scores ↔ ∃ a ∈ actions, viable a = .ok true ∧ score a = .ok x := by
  have hok : Function.Injective (Except.ok : α → Except String α) := fun _ _ => Except.ok.inj
  rw [← List.mem_map_of_injective hok, ← h.scores_eq]
  simp [viableScores, affirms_eq_true_iff, and_assoc]

theorem of_perm (h : Scored score viable actions scores)
    (hperm : (others.map (answers score' viable')).Perm (actions.map (answers score viable))) :
    ∃ scores', scores'.Perm scores ∧ Scored score' viable' others scores' := by
  have hscores := viableScores_perm hperm
  rw [h.scores_eq] at hscores
  -- No answer that counts is a refusal, so those of the other list are scores too.
  have hrange : viableScores score' viable' others ∈ Set.range (List.map Except.ok) := by
    rw [Set.range_list_map]
    intro o ho
    obtain ⟨x, -, hx⟩ := List.mem_map.mp (hscores.mem_iff.mp ho)
    exact ⟨x, hx⟩
  obtain ⟨scores', heq⟩ := hrange
  rw [← heq, List.map_perm_map_iff fun _ _ => Except.ok.inj] at hscores
  exact ⟨scores', hscores, checked_of_perm hperm h.checked, heq.symm,
    fun x hx => h.isScore x (hscores.mem_iff.mp hx)⟩

end Scored

end Answers

section Exact

variable {α A : Type} [Scalar α] {value : α → ℝ} (exact : Scalar.Exact value)
  (c : Constraint α)

include exact

theorem summarize_perm (moralEntropy : α) (n : ℕ) {xs ys : List α} (h : xs.Perm ys) :
    c.summarize moralEntropy n xs = c.summarize moralEntropy n ys := by
  rw [summarize, summarize, exact.mean_perm h, exact.greatest_perm h,
    Diversity.scoreDiversity_congr (h.map _), h.length_eq, h.isEmpty_eq]

theorem summarize_between (moralEntropy : α) (n : ℕ) {xs : List α} (hne : xs ≠ [])
    (h : ∀ x ∈ xs, IsScore x) :
    (∃ least ∈ xs, (∀ x ∈ xs, least ≤ x) ∧ Scalar.zero ≤ least ∧
      least ≤ (c.summarize moralEntropy n xs).aggregate) ∧
    (c.summarize moralEntropy n xs).aggregate ≤ (c.summarize moralEntropy n xs).best ∧
    (c.summarize moralEntropy n xs).best ≤ Scalar.one ∧
    (c.summarize moralEntropy n xs).best ∈ xs := by
  have hsummary : (c.summarize moralEntropy n xs).aggregate = mean xs ∧
      (c.summarize moralEntropy n xs).best = greatest xs := by
    rw [summarize, if_neg (by simpa using hne)]
    exact ⟨rfl, rfl⟩
  obtain ⟨least, hmem, hleast⟩ := exact.exists_least hne
  have hbest : greatest xs ∈ xs := exact.greatest_mem hne fun x hx => (h x hx).2.1
  rw [hsummary.1, hsummary.2]
  exact ⟨⟨least, hmem, hleast, (h least hmem).2.1, exact.le_mean hne hleast⟩,
    exact.mean_le hne fun x hx => exact.le_greatest hx, (h _ hbest).2.2, hbest⟩

/-- If some action is viable then the aggregate of an evaluation lies between the least of
the viable scores and the best one, which is one of them, and all are in the unit interval.
The actions may come in any order, and be of any kind: with the same answers there is the
same result.  Whatever the numbers, and for doubles too, the diversity is the same for all
scores that are in the same bins. -/
theorem evaluate_disregards_order (moral : MoralState α) {actions : List A}
    {score : A → Except String α} {viable : A → Except String Bool} {r : Evaluation α}
    (hr : (c.evaluate moral actions score viable).outcome = .ok r) :
    ((∃ a ∈ actions, viable a = .ok true) →
      (∃ least, IsLeast {x | ∃ a ∈ actions, viable a = .ok true ∧ score a = .ok x} least ∧
        Scalar.zero ≤ least ∧ least ≤ r.aggregate) ∧
      r.aggregate ≤ r.best ∧ r.best ≤ Scalar.one ∧
      ∃ a ∈ actions, viable a = .ok true ∧ score a = .ok r.best) ∧
    (∀ {B : Type} (others : List B) (score' : B → Except String α)
      (viable' : B → Except String Bool),
        (others.map (answers score' viable')).Perm (actions.map (answers score viable)) →
          (c.evaluate moral others score' viable').outcome = .ok r) ∧
    (∀ {β : Type} [Scalar β] (bins : ℕ) (scores others : List β),
      (scores.map (Diversity.binIndex · bins)).Perm (others.map (Diversity.binIndex · bins)) →
        Diversity.scoreDiversity scores bins = Diversity.scoreDiversity others bins) := by
  obtain ⟨scores, hscores, rfl⟩ := evaluate_eq_ok_iff.mp hr
  refine ⟨?_, ?_, fun bins xs ys => Diversity.scoreDiversity_congr⟩
  · rintro ⟨a, ha, hviable⟩
    have hne : scores ≠ [] := by
      rintro rfl
      have hmem : score a ∈ viableScores score viable actions := by
        refine List.mem_map.mpr ⟨a, List.mem_filter.mpr ⟨ha, affirms_eq_true_iff.mpr hviable⟩, rfl⟩
      rw [hscores.scores_eq] at hmem
      cases hmem
    obtain ⟨⟨least, hmem, hleast, hbounds⟩, hbest, hone, hattained⟩ :=
      summarize_between exact c moral.entropy actions.length hne hscores.isScore
    refine ⟨⟨least, ⟨hscores.mem_iff.mp hmem, ?_⟩, hbounds⟩, hbest, hone,
      hscores.mem_iff.mp hattained⟩
    exact fun x hx => hleast x (hscores.mem_iff.mpr hx)
  · intro B others score' viable' hperm
    obtain ⟨scores', hsame, hscores'⟩ := hscores.of_perm hperm
    have hlength : others.length = actions.length := by simpa using hperm.length_eq
    refine evaluate_eq_ok_iff.mpr ⟨scores', hscores', ?_⟩
    rw [hlength, summarize_perm exact c moral.entropy actions.length hsame]

end Exact

/-- Two viable actions around one that is not viable and has no score. -/
noncomputable def around : List (Except String ℝ × Bool) :=
  [(.ok 0, true), (.error "down", false), (.ok 1, true)]

theorem evaluate_disregards_order_reversed : ∃ r : Evaluation ℝ,
    (default.evaluate ⟨.empty⟩ around (·.1) fun a => .ok a.2).outcome = .ok r ∧
    (default.evaluate ⟨.empty⟩ around.reverse (·.1) fun a => .ok a.2).outcome = .ok r ∧
    r.aggregate ≤ r.best ∧ ∃ a ∈ around, a.2 = true ∧ a.1 = .ok r.best := by
  have hscored : Scored (·.1) (fun a => .ok a.2) around ([0, 1] : List ℝ) := by
    refine ⟨fun a _ => ⟨a.2, rfl⟩, rfl, ?_⟩
    simp only [List.forall_mem_cons, IsScore, Scalar.zero_real, Scalar.one_real]
    norm_num
  have hr : (default.evaluate ⟨.empty⟩ around (·.1) fun a => .ok a.2).outcome =
      .ok (default.summarize (MoralState.entropy ⟨.empty⟩) 3 [0, 1]) :=
    evaluate_eq_ok_iff.mpr ⟨_, hscored, rfl⟩
  obtain ⟨hbounds, horder, -⟩ :=
    evaluate_disregards_order Scalar.exact_real default ⟨.empty⟩ hr
  obtain ⟨-, hbest, -, a, ha, hviable, hattained⟩ := hbounds ⟨_, List.mem_cons_self, rfl⟩
  exact ⟨_, hr, horder around.reverse _ _ ((List.reverse_perm around).map _), hbest, a, ha,
    Except.ok.inj hviable, hattained⟩

end Constraint

end Vigil
