import Vigil.Proofs.Choice.Course

/-!
# Actions that are not viable

An action that is not viable takes up a position and counts for the total, and that is
all.  Two lists of actions, of whatever kinds, whose viable actions score alike have
evaluations that differ in the total and in the positions they report.
-/

namespace Vigil.Constraint

variable {α : Type}

/-- What the scorer makes of the viable actions, in their order. -/
def viableScores {A : Type} (score : A → Except String α) (viable : A → Except String Bool)
    (actions : List A) : List (Except String α) :=
  (actions.filter fun a => affirms (viable a)).map score

/-- Two failures with one cause, reported at the same place of two lists of positions. -/
def FailAlike {β : Type} (positions positions' : List Nat) (o o' : Except (ChoiceError α) β) :
    Prop :=
  ∃ k i j : Nat, positions[k]? = some i ∧ positions'[k]? = some j ∧
    ((∃ reason, o = .error (.capability .score i reason) ∧
        o' = .error (.capability .score j reason)) ∨
      ∃ x, o = .error (.scoreOutOfRange i x) ∧ o' = .error (.scoreOutOfRange j x))

namespace FailAlike

variable {β γ : Type} {positions positions' : List Nat} {o o' : Except (ChoiceError α) β}

theorem cons (i j : Nat) (h : FailAlike positions positions' o o') :
    FailAlike (i :: positions) (j :: positions') o o' := by
  obtain ⟨k, p, q, hp, hq, hcause⟩ := h
  exact ⟨k + 1, p, q, hp, hq, hcause⟩

theorem map (f g : β → γ) (h : FailAlike positions positions' o o') :
    FailAlike positions positions' (o.map f) (o'.map g) := by
  obtain ⟨k, p, q, hp, hq, ⟨reason, rfl, rfl⟩ | ⟨x, rfl, rfl⟩⟩ := h
  · exact ⟨k, p, q, hp, hq, Or.inl ⟨reason, rfl, rfl⟩⟩
  · exact ⟨k, p, q, hp, hq, Or.inr ⟨x, rfl, rfl⟩⟩

end FailAlike

section Scores

variable {A : Type} {score : A → Except String α} {viable : A → Except String Bool}
  {actions : List A}

theorem map_score_viableActions (score : A → Except String α) (viable : A → Except String Bool)
    (actions : List A) :
    (viableActions viable actions).map (fun a => score a.1) =
      viableScores score viable actions := by
  rw [viableScores, ← map_fst_viableActions, List.map_map]
  rfl

end Scores

variable [Scalar α] {A B : Type}

section TwoSurveys

variable {score : A → Except String α} {score' : B → Except String α}

/-- Two surveys with the same outcomes in the same order find the same scores, or fail at
the same place and for the same cause. -/
theorem survey_askScore_congr {elements : List (A × Nat)} {others : List (B × Nat)}
    (h : elements.map (fun a => score a.1) = others.map (fun b => score' b.1)) :
    (∃ scores, (survey (askScore score) elements).2 = .ok scores ∧
      (survey (askScore score') others).2 = .ok scores) ∨
    FailAlike (elements.map (·.2)) (others.map (·.2)) (survey (askScore score) elements).2
      (survey (askScore score') others).2 := by
  induction elements generalizing others with
  | nil =>
      obtain rfl : others = [] := List.map_eq_nil_iff.mp h.symm
      exact Or.inl ⟨[], rfl, rfl⟩
  | cons a as ih =>
      obtain ⟨b, bs, rfl, hb, hbs⟩ := List.map_eq_cons_iff.mp h.symm
      replace hb : score' b.1 = score a.1 := hb
      cases hs : score a.1 with
      | error reason =>
          rw [hs] at hb
          rw [survey_cons_error (askScore_of_error hs), survey_cons_error (askScore_of_error hb)]
          exact Or.inr ⟨0, a.2, b.2, rfl, rfl, Or.inl ⟨reason, rfl, rfl⟩⟩
      | ok x =>
          rw [hs] at hb
          by_cases hx : IsScore x
          · rw [survey_cons_ok (askScore_of_ok hs hx), survey_cons_ok (askScore_of_ok hb hx)]
            rcases ih hbs.symm with ⟨scores, hfound, hfound'⟩ | hfails
            · refine Or.inl ⟨x :: scores, ?_, ?_⟩
              · simp only [hfound, Except.map]
              · simp only [hfound', Except.map]
            · exact Or.inr ((hfails.map _ _).cons a.2 b.2)
          · rw [survey_cons_error (askScore_of_not_isScore hs hx),
              survey_cons_error (askScore_of_not_isScore hb hx)]
            exact Or.inr ⟨0, a.2, b.2, rfl, rfl, Or.inr ⟨x, rfl, rfl⟩⟩

end TwoSurveys

theorem summarize_of_totalCount (c : Constraint α) (moralEntropy : α) (m n : Nat)
    (scores : List α) :
    c.summarize moralEntropy n scores =
      { c.summarize moralEntropy m scores with totalCount := n } := by
  unfold summarize
  split <;> rfl

theorem totalCount_summarize (c : Constraint α) (moralEntropy : α) (n : Nat) (scores : List α) :
    (c.summarize moralEntropy n scores).totalCount = n := by
  unfold summarize
  split <;> rfl

/-- An evaluation yields a result without options for lack of viable actions only. -/
theorem exists_result_without_options_iff (c : Constraint α) (moral : MoralState α)
    (actions : List A) (score : A → Except String α) (viable : A → Except String Bool) :
    (∃ r, (c.evaluate moral actions score viable).outcome = .ok r ∧
      r.hasViableOptions = false) ↔ ∀ a ∈ actions, viable a = .ok false := by
  constructor
  · rintro ⟨r, hr, hwithout⟩
    have hcourse := course_evaluate c moral actions score viable
    generalize c.evaluate moral actions score viable = t at hcourse hr
    cases hcourse with
    | uncheckable => cases hr
    | noChoice hnone => exact hnone
    | unscorable => cases hr
    | outOfRange => cases hr
    | scored scores hchecked hsome hscores =>
        cases hr
        exact absurd (by simpa [Evaluation.hasViableOptions] using hwithout) hsome
  · intro hnone
    rw [evaluate_of_noChoice hnone]
    exact ⟨_, rfl, rfl⟩

/-- An evaluation that can check every action depends on the outcomes of the viable ones,
and on nothing else but the length of the list; and the result is without options if and
only if no action is viable. -/
theorem evaluate_ignores_bystanders (c : Constraint α) (moral : MoralState α)
    {actions : List A} {score : A → Except String α} {viable : A → Except String Bool}
    {others : List B} {score' : B → Except String α} {viable' : B → Except String Bool}
    (hchecked : ∀ a ∈ actions, ∃ answer, viable a = .ok answer)
    (hchecked' : ∀ b ∈ others, ∃ answer, viable' b = .ok answer)
    (hscores : viableScores score viable actions = viableScores score' viable' others) :
    ((∃ r, (c.evaluate moral actions score viable).outcome = .ok r ∧
        (c.evaluate moral others score' viable').outcome =
          .ok { r with totalCount := others.length } ∧
        r.totalCount = actions.length) ∨
      FailAlike (viablePositions viable actions) (viablePositions viable' others)
        (c.evaluate moral actions score viable).outcome
        (c.evaluate moral others score' viable').outcome) ∧
    ((∃ r, (c.evaluate moral actions score viable).outcome = .ok r ∧
      r.hasViableOptions = false) ↔ ∀ a ∈ actions, viable a = .ok false) := by
  refine ⟨?_, exists_result_without_options_iff c moral actions score viable⟩
  rw [evaluate_of_checked hchecked, evaluate_of_checked hchecked',
    ← map_snd_viableActions, ← map_snd_viableActions]
  have hsame : (viableActions viable actions).map (fun a => score a.1) =
      (viableActions viable' others).map (fun b => score' b.1) := by
    rw [map_score_viableActions, map_score_viableActions, hscores]
  rcases survey_askScore_congr hsame with ⟨scores, hfound, hfound'⟩ | hfails
  · left
    refine ⟨c.summarize moral.entropy actions.length scores, ?_, ?_, totalCount_summarize _ _ _ _⟩
    · simp only [hfound, Except.map]
    · simp only [hfound', Except.map]
      rw [← summarize_of_totalCount]
  · exact Or.inr (hfails.map _ _)

/-- Two viable actions, the second with a score that does not count. -/
def alone : List (Except String Float × Bool) := [(.ok 0.8, true), (.ok 2.0, true)]

/-- The same two among actions that are not viable, one of which has no score. -/
def accompanied : List (Except String Float × Bool) :=
  [(.error "down", false), (.ok 0.8, true), (.ok (0.0 / 0.0), false), (.ok 2.0, true)]

theorem evaluate_ignores_bystanders_accompanied :
    viableScores (·.1) (fun a => .ok a.2) alone =
      viableScores (·.1) (fun a => .ok a.2) accompanied ∧
    FailAlike [0, 1] [1, 3]
      ((default : Constraint Float).evaluate ⟨.empty⟩ alone (·.1) fun a => .ok a.2).outcome
      ((default : Constraint Float).evaluate ⟨.empty⟩ accompanied (·.1)
        fun a => .ok a.2).outcome := by
  have hscores : viableScores (·.1) (fun a => .ok a.2) alone =
      viableScores (·.1) (fun a => .ok a.2) accompanied := rfl
  have hevaluate := (evaluate_ignores_bystanders default ⟨.empty⟩
    (fun a _ => ⟨a.2, rfl⟩) (fun b _ => ⟨b.2, rfl⟩) hscores).1
  have hfails : ((default : Constraint Float).evaluate ⟨.empty⟩ alone (·.1)
      fun a => .ok a.2).outcome.toOption.isNone = true := by
    decide +kernel
  rcases hevaluate with ⟨r, hr, -, -⟩ | halike
  · rw [hr] at hfails
    cases hfails
  · exact ⟨hscores, halike⟩

end Vigil.Constraint
