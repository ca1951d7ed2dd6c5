import Mathlib.Algebra.Order.BigOperators.Group.List
import Vigil.Proofs.Choice.Ceiling
import Vigil.Proofs.Choice.Scores

/-!
# Better scores and stricter floors

In exact numbers a verdict does not fall when the aggregate and the diversity rise.  A
floor for the diversity takes a positive verdict down to a neutral one and does nothing
else, so it has no say in whether choice is preserved.  Raising scores may well lower
their diversity: with a floor the verdict can fall, but no further than that.
-/

namespace Vigil

namespace Thresholds

variable {t t' : Thresholds ℝ} {aggregate aggregate' diversity diversity' : ℝ}

theorem classify_of_high (h : t.high - slack ≤ aggregate) (diversity : ℝ) :
    t.classify aggregate diversity =
      if t.missesFloor diversity = true then .neutral else .positive := by
  rw [classify, if_pos h]

theorem classify_of_not_high (h : ¬ t.high - slack ≤ aggregate) (diversity : ℝ) :
    t.classify aggregate diversity =
      if aggregate ≤ t.low + slack then .negative else .neutral := by
  rw [classify, if_neg h]

/-- The high threshold comes first, also where the two bands overlap. -/
theorem classify_eq_negative_iff :
    t.classify aggregate diversity = .negative ↔
      ¬ t.high - slack ≤ aggregate ∧ aggregate ≤ t.low + slack := by
  by_cases hhigh : t.high - slack ≤ aggregate
  · rw [classify_of_high hhigh]
    split <;> simp [hhigh]
  · rw [classify_of_not_high hhigh]
    split <;> simp_all

theorem missesFloor_eq_true_iff :
    t.missesFloor diversity = true ↔ ∃ m, t.minDiversity = some m ∧ diversity < m - slack := by
  unfold missesFloor
  cases t.minDiversity <;> simp

theorem missesFloor_of_le (h : diversity ≤ diversity') (hmisses : t.missesFloor diversity' = true) :
    t.missesFloor diversity = true := by
  obtain ⟨m, hfloor, hlt⟩ := missesFloor_eq_true_iff.mp hmisses
  exact missesFloor_eq_true_iff.mpr ⟨m, hfloor, lt_of_le_of_lt h hlt⟩

theorem classify_mono (t : Thresholds ℝ) (haggregate : aggregate ≤ aggregate')
    (hdiversity : diversity ≤ diversity') :
    t.classify aggregate diversity ≤ t.classify aggregate' diversity' := by
  by_cases hhigh : t.high - slack ≤ aggregate
  · rw [classify_of_high hhigh, classify_of_high (hhigh.trans haggregate)]
    by_cases hmisses : t.missesFloor diversity' = true
    · rw [if_pos hmisses, if_pos (missesFloor_of_le hdiversity hmisses)]
      exact Ternary.le_refl _
    · rw [if_neg hmisses]
      exact Ternary.le_positive _
  · rw [classify_of_not_high hhigh]
    by_cases hlow : aggregate ≤ t.low + slack
    · rw [if_pos hlow]
      exact Ternary.negative_le _
    · rw [if_neg hlow]
      by_cases hhigh' : t.high - slack ≤ aggregate'
      · rw [classify_of_high hhigh']
        split <;> decide
      · rw [classify_of_not_high hhigh', if_neg fun hle => hlow (haggregate.trans hle)]
        exact Ternary.le_refl _

/-- Without a floor the diversity does not matter. -/
theorem classify_le_of_no_floor (h : t.minDiversity = none) (haggregate : aggregate ≤ aggregate')
    (diversity diversity' : ℝ) :
    t.classify aggregate diversity ≤ t.classify aggregate' diversity' := by
  have hsame : t.classify aggregate diversity = t.classify aggregate diversity' := by
    simp only [classify, missesFloor_of_none h]
  rw [hsame]
  exact classify_mono t haggregate le_rfl

theorem classify_ne_negative_of_le (haggregate : aggregate ≤ aggregate')
    (h : t.classify aggregate diversity ≠ .negative) :
    t.classify aggregate' diversity' ≠ .negative := by
  rw [Ne, classify_eq_negative_iff] at h ⊢
  rintro ⟨hhigh, hlow⟩
  exact h ⟨fun hle => hhigh (hle.trans haggregate), haggregate.trans hlow⟩

/-- No floor makes a verdict negative, or keeps it from being negative. -/
theorem classify_floor_eq_negative_iff (t : Thresholds ℝ) (floor : Option ℝ)
    (aggregate diversity diversity' : ℝ) :
    classify { t with minDiversity := floor } aggregate diversity' = .negative ↔
      t.classify aggregate diversity = .negative := by
  rw [classify_eq_negative_iff, classify_eq_negative_iff]

theorem withMinDiversity_eq_ok {m : ℝ} (h : t.withMinDiversity m = .ok t') :
    t' = { t with minDiversity := some m } := by
  unfold withMinDiversity at h
  split at h
  · exact (Except.ok.inj h).symm
  · cases h

/-- A floor that is new, or not below the old one, is missed by what missed the old one. -/
theorem missesFloor_of_raised {m : ℝ} (hm : ∀ k, t.minDiversity = some k → k ≤ m)
    (hmisses : t.missesFloor diversity = true) :
    missesFloor { t with minDiversity := some m } diversity = true := by
  obtain ⟨k, hfloor, hlt⟩ := missesFloor_eq_true_iff.mp hmisses
  have hle : k - slack ≤ m - slack := sub_le_sub_right (hm k hfloor) slack
  exact missesFloor_eq_true_iff.mpr ⟨m, rfl, lt_of_lt_of_le hlt hle⟩

theorem classify_of_raised {m : ℝ} (h : t.withMinDiversity m = .ok t')
    (hm : ∀ k, t.minDiversity = some k → k ≤ m) (aggregate diversity : ℝ) :
    t'.classify aggregate diversity = t.classify aggregate diversity ∨
      t.classify aggregate diversity = .positive ∧ t'.classify aggregate diversity = .neutral := by
  obtain rfl := withMinDiversity_eq_ok h
  by_cases hhigh : t.high - slack ≤ aggregate
  · have hhigh' : ({ t with minDiversity := some m } : Thresholds ℝ).high - slack ≤ aggregate :=
      hhigh
    rw [classify_of_high hhigh, classify_of_high hhigh']
    by_cases hmisses : t.missesFloor diversity = true
    · rw [if_pos hmisses, if_pos (missesFloor_of_raised hm hmisses)]
      exact Or.inl rfl
    · rw [if_neg hmisses]
      split
      · exact Or.inr ⟨rfl, rfl⟩
      · exact Or.inl rfl
  · exact Or.inl (by rw [classify, classify, if_neg hhigh, if_neg hhigh])

end Thresholds

namespace Constraint

variable {A B : Type}

/-- An action keeps its viability, and if it is viable its score does not fall. -/
def RisesTo (score : A → Except String ℝ) (viable : A → Except String Bool)
    (score' : B → Except String ℝ) (viable' : B → Except String Bool) (a : A) (b : B) : Prop :=
  viable' b = viable a ∧
    (viable a = .ok true → ∀ x y, score a = .ok x → score' b = .ok y → x ≤ y)

section Scores

variable {score : A → Except String ℝ} {viable : A → Except String Bool}
  {score' : B → Except String ℝ} {viable' : B → Except String Bool}

theorem forall₂_le_of_risesTo {actions : List A} {others : List B}
    (h : List.Forall₂ (RisesTo score viable score' viable') actions others) {xs ys : List ℝ}
    (hxs : viableScores score viable actions = xs.map .ok)
    (hys : viableScores score' viable' others = ys.map .ok) : List.Forall₂ (· ≤ ·) xs ys := by
  induction h generalizing xs ys with
  | nil =>
      rw [List.map_eq_nil_iff.mp hxs.symm, List.map_eq_nil_iff.mp hys.symm]
      exact .nil
  | @cons a b as bs hab _ ih =>
      obtain ⟨hviable, hle⟩ := hab
      by_cases ha : viable a = .ok true
      · rw [viableScores_cons_of_pos ha] at hxs
        rw [viableScores_cons_of_pos (hviable.trans ha)] at hys
        obtain ⟨x, xs, rfl, hx, hxs⟩ := List.map_eq_cons_iff.mp hxs.symm
        obtain ⟨y, ys, rfl, hy, hys⟩ := List.map_eq_cons_iff.mp hys.symm
        exact .cons (hle ha x y hx.symm hy.symm) (ih hxs.symm hys.symm)
      · rw [viableScores_cons_of_neg ha] at hxs
        rw [viableScores_cons_of_neg fun hb => ha (hviable ▸ hb)] at hys
        exact ih hxs hys

end Scores

theorem mean_le_mean {xs ys : List ℝ} (h : List.Forall₂ (· ≤ ·) xs ys) : mean xs ≤ mean ys := by
  rw [mean, mean, Scalar.sum_real, Scalar.sum_real, h.length_eq]
  exact div_le_div_of_nonneg_right h.sum_le_sum (Nat.cast_nonneg _)

theorem verdict_summarize_of_ne_nil (c : Constraint ℝ) (moralEntropy : ℝ) (n : ℕ) {xs : List ℝ}
    (h : xs ≠ []) : (c.summarize moralEntropy n xs).verdict =
      c.thresholds.classify (mean xs) (Diversity.scoreDiversity xs c.bins) := by
  rw [summarize, if_neg (by simpa using h)]

theorem choicePreserved_eq_true_iff {r : Evaluation ℝ} :
    r.choicePreserved = true ↔ r.verdict ≠ .negative := by
  simp [Evaluation.choicePreserved]

/-- The evaluator with another floor for the diversity, or without one. -/
def withFloor (c : Constraint ℝ) (floor : Option ℝ) : Constraint ℝ :=
  { c with thresholds := { c.thresholds with minDiversity := floor } }

theorem choicePreserved_summarize_withFloor (c : Constraint ℝ) (floor : Option ℝ)
    (moralEntropy : ℝ) (n : ℕ) (xs : List ℝ) :
    ((c.withFloor floor).summarize moralEntropy n xs).choicePreserved =
      (c.summarize moralEntropy n xs).choicePreserved := by
  by_cases hxs : xs = []
  · rw [hxs]
    rfl
  · rw [Bool.eq_iff_iff, choicePreserved_eq_true_iff, choicePreserved_eq_true_iff,
      verdict_summarize_of_ne_nil _ _ _ hxs, verdict_summarize_of_ne_nil _ _ _ hxs]
    exact not_congr (c.thresholds.classify_floor_eq_negative_iff floor _ _ _)

theorem choicePreserved_evaluate_withFloor (c : Constraint ℝ) (floor : Option ℝ)
    (moral : MoralState ℝ) (actions : List A) (score : A → Except String ℝ)
    (viable : A → Except String Bool) :
    ((c.withFloor floor).evaluate moral actions score viable).outcome.map (·.choicePreserved) =
      (c.evaluate moral actions score viable).outcome.map (·.choicePreserved) := by
  simp only [evaluate]
  generalize survey (askViability viable) actions.zipIdx = checks
  obtain ⟨checked, error | flags⟩ := checks
  · rfl
  · dsimp only
    generalize survey (askScore score) (select actions.zipIdx flags) = answers
    obtain ⟨scored, error | scores⟩ := answers
    · rfl
    · simp only [Except.map, choicePreserved_summarize_withFloor]

section Rise

variable {xs ys : List ℝ} (h : List.Forall₂ (· ≤ ·) xs ys)

include h

theorem verdict_le_of_no_floor {c : Constraint ℝ} (hfloor : c.thresholds.minDiversity = none)
    (moralEntropy moralEntropy' : ℝ) (n n' : ℕ) :
    (c.summarize moralEntropy n xs).verdict ≤ (c.summarize moralEntropy' n' ys).verdict := by
  have hmean : mean xs ≤ mean ys := mean_le_mean h
  cases h with
  | nil => exact Ternary.le_refl _
  | cons =>
      rw [verdict_summarize_of_ne_nil _ _ _ (List.cons_ne_nil _ _),
        verdict_summarize_of_ne_nil _ _ _ (List.cons_ne_nil _ _)]
      exact Thresholds.classify_le_of_no_floor hfloor hmean _ _

theorem choicePreserved_of_le {c : Constraint ℝ} {moralEntropy : ℝ} {n : ℕ}
    (hpreserved : (c.summarize moralEntropy n xs).choicePreserved = true)
    (moralEntropy' : ℝ) (n' : ℕ) :
    (c.summarize moralEntropy' n' ys).choicePreserved = true := by
  have hmean : mean xs ≤ mean ys := mean_le_mean h
  cases h with
  | nil => exact hpreserved
  | cons =>
      rw [choicePreserved_eq_true_iff, verdict_summarize_of_ne_nil _ _ _ (List.cons_ne_nil _ _)]
        at hpreserved ⊢
      exact Thresholds.classify_ne_negative_of_le hmean hpreserved

end Rise

/-- A verdict does not fall when aggregate and diversity rise.  A floor that is added or
raised takes positive verdicts to neutral ones and changes no other, so whether choice is
preserved does not depend on it.  Without a floor the verdict on actions does not fall
when their scores rise; with any floor, choice that was preserved remains so. -/
theorem verdict_rises_with_scores (c : Constraint ℝ) :
    (∀ aggregate aggregate' diversity diversity' : ℝ,
      aggregate ≤ aggregate' → diversity ≤ diversity' →
        c.thresholds.classify aggregate diversity ≤
          c.thresholds.classify aggregate' diversity') ∧
    (∀ (m : ℝ) (stricter : Thresholds ℝ), c.thresholds.withMinDiversity m = .ok stricter →
      (∀ k, c.thresholds.minDiversity = some k → k ≤ m) → ∀ aggregate diversity : ℝ,
        stricter.classify aggregate diversity ≤ c.thresholds.classify aggregate diversity ∧
        (stricter.classify aggregate diversity = c.thresholds.classify aggregate diversity ∨
          c.thresholds.classify aggregate diversity = .positive ∧
            stricter.classify aggregate diversity = .neutral)) ∧
    (∀ (floor : Option ℝ) {A : Type} (moral : MoralState ℝ) (actions : List A)
      (score : A → Except String ℝ) (viable : A → Except String Bool),
        ((c.withFloor floor).evaluate moral actions score viable).outcome.map
            (·.choicePreserved) =
          (c.evaluate moral actions score viable).outcome.map (·.choicePreserved)) ∧
    (∀ {A B : Type} (moral moral' : MoralState ℝ) (actions : List A) (others : List B)
      (score : A → Except String ℝ) (viable : A → Except String Bool)
      (score' : B → Except String ℝ) (viable' : B → Except String Bool) (r r' : Evaluation ℝ),
        List.Forall₂ (RisesTo score viable score' viable') actions others →
        (c.evaluate moral actions score viable).outcome = .ok r →
        (c.evaluate moral' others score' viable').outcome = .ok r' →
          (c.thresholds.minDiversity = none → r.verdict ≤ r'.verdict) ∧
          (r.choicePreserved = true → r'.choicePreserved = true)) := by
  refine ⟨?monotone, ?stricter, ?floor, ?scores⟩
  case monotone =>
    intro aggregate aggregate' diversity diversity' haggregate hdiversity
    exact c.thresholds.classify_mono haggregate hdiversity
  case stricter =>
    intro m stricter hstricter hm aggregate diversity
    have hclassify := Thresholds.classify_of_raised hstricter hm aggregate diversity
    refine ⟨?_, hclassify⟩
    rcases hclassify with hsame | ⟨hpositive, hneutral⟩
    · rw [hsame]
      exact Ternary.le_refl _
    · rw [hpositive]
      exact Ternary.le_positive _
  case floor =>
    intro floor A moral actions score viable
    exact c.choicePreserved_evaluate_withFloor floor moral actions score viable
  case scores =>
    intro A B moral moral' actions others score viable score' viable' r r' hrises hr hr'
    obtain ⟨xs, hxs, rfl⟩ := evaluate_eq_ok_iff.mp hr
    obtain ⟨ys, hys, rfl⟩ := evaluate_eq_ok_iff.mp hr'
    have hle : List.Forall₂ (· ≤ ·) xs ys :=
      forall₂_le_of_risesTo hrises hxs.scores_eq hys.scores_eq
    exact ⟨fun hfloor => verdict_le_of_no_floor hle hfloor _ _ _ _,
      fun hpreserved => choicePreserved_of_le hle hpreserved _ _⟩

/-- An evaluator with a floor for the diversity. -/
noncomputable def gated : Constraint ℝ := ⟨⟨0.3, 0.9, some 0.5⟩, 10⟩

/-- Numbers as actions that are all viable and score themselves. -/
theorem evaluate_self (c : Constraint ℝ) (moral : MoralState ℝ) (xs : List ℝ)
    (h : ∀ x ∈ xs, IsScore x) :
    (c.evaluate moral xs .ok fun _ => .ok true).outcome =
      .ok (c.summarize moral.entropy xs.length xs) := by
  refine evaluate_eq_ok_iff.mpr ⟨xs, ⟨fun _ _ => ⟨true, rfl⟩, ?_, h⟩, rfl⟩
  exact congrArg (List.map Except.ok) (List.filter_eq_self.mpr fun _ _ => rfl)

theorem verdict_gated_apart (moralEntropy : ℝ) (n : ℕ) :
    (gated.summarize moralEntropy n [0.95, 0.85]).verdict = .positive := by
  have hdiversity : Diversity.scoreDiversity [0.95, 0.85] 10 = (1 : ℝ) := by
    rw [Diversity.scoreDiversity_eq_one_iff_nodup (by simp) (by omega) (by simp)]
    simp only [List.map_cons, List.map_nil, Diversity.binIndex_real]
    norm_num
  rw [verdict_summarize_of_ne_nil _ _ _ (List.cons_ne_nil _ _)]
  simp only [gated, hdiversity, mean, Scalar.sum_real, Thresholds.classify, Thresholds.slack,
    Thresholds.missesFloor]
  norm_num

theorem verdict_gated_together (moralEntropy : ℝ) (n : ℕ) :
    (gated.summarize moralEntropy n [0.95, 0.95]).verdict = .neutral := by
  have hdiversity : Diversity.scoreDiversity [0.95, 0.95] 10 = (0 : ℝ) := by
    rw [Diversity.scoreDiversity_eq_zero_iff (by simp) (by omega)]
    refine ⟨9, ?_⟩
    simp only [List.forall_mem_cons, Diversity.binIndex_real]
    norm_num
  rw [verdict_summarize_of_ne_nil _ _ _ (List.cons_ne_nil _ _)]
  simp only [gated, hdiversity, mean, Scalar.sum_real, Thresholds.classify, Thresholds.slack,
    Thresholds.missesFloor]
  norm_num

/-- The second score catches up with the first.  The diversity is lost and the verdict
falls, and choice is still preserved.  A stricter floor does not raise a verdict. -/
theorem verdict_rises_with_scores_gated :
    (∃ r r' : Evaluation ℝ,
      (gated.evaluate ⟨.empty⟩ [0.95, 0.85] .ok fun _ => .ok true).outcome = .ok r ∧
      (gated.evaluate ⟨.empty⟩ [0.95, 0.95] .ok fun _ => .ok true).outcome = .ok r' ∧
      r.verdict = .positive ∧ r'.verdict = .neutral ∧ r'.choicePreserved = true) ∧
    ∃ stricter, gated.thresholds.withMinDiversity 1 = .ok stricter ∧
      stricter.classify 0.95 0.6 ≤ gated.thresholds.classify 0.95 0.6 := by
  obtain ⟨-, hstricter, -, hscores⟩ := verdict_rises_with_scores gated
  constructor
  · have hrises : List.Forall₂ (RisesTo (A := ℝ) (B := ℝ) .ok (fun _ => .ok true) .ok
        (fun _ => .ok true)) [0.95, 0.85] [0.95, 0.95] := by
      refine .cons ⟨rfl, ?_⟩ (.cons ⟨rfl, ?_⟩ .nil)
      all_goals
        rintro - x y ⟨⟩ ⟨⟩
        norm_num
    have hr := evaluate_self gated ⟨.empty⟩ [0.95, 0.85] (by
      simp only [List.forall_mem_cons, IsScore, Scalar.zero_real, Scalar.one_real]
      norm_num)
    have hr' := evaluate_self gated ⟨.empty⟩ [0.95, 0.95] (by
      simp only [List.forall_mem_cons, IsScore, Scalar.zero_real, Scalar.one_real]
      norm_num)
    have hpositive := verdict_gated_apart (MoralState.entropy ⟨.empty⟩) 2
    have hneutral := verdict_gated_together (MoralState.entropy ⟨.empty⟩) 2
    refine ⟨_, _, hr, hr', hpositive, hneutral, ?_⟩
    apply (hscores _ _ _ _ _ _ _ _ _ _ hrises hr hr').2
    exact choicePreserved_eq_true_iff.mpr fun hnegative => by
      cases hpositive.symm.trans hnegative
  · have hunit : Scalar.inUnit (1 : ℝ) = true := by simp
    have hm : ∀ k, gated.thresholds.minDiversity = some k → k ≤ 1 := by
      rintro k ⟨⟩
      norm_num
    have hmake : gated.thresholds.withMinDiversity 1 =
        .ok { gated.thresholds with minDiversity := some 1 } := if_pos hunit
    exact ⟨_, hmake, (hstricter 1 _ hmake hm 0.95 0.6).1⟩

end Constraint

end Vigil
