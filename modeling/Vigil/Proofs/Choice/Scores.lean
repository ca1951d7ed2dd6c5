import Vigil.Proofs.Choice.Bystanders

/-!
# Results and their scores

A result is what the scores of the viable actions amount to.  The thresholds come in at
the end, so they decide neither whether there is a result nor what the scores are.
-/

namespace Vigil.Constraint

variable {α A : Type} [Scalar α] {c : Constraint α} {moral : MoralState α} {actions : List A}
  {score : A → Except String α} {viable : A → Except String Bool}

theorem affirms_eq_true_iff {ε : Type} {o : Except ε Bool} : affirms o = true ↔ o = .ok true := by
  cases o <;> simp [affirms]

omit [Scalar α] in
theorem viableScores_cons_of_pos {a : A} (h : viable a = .ok true) (as : List A) :
    viableScores score viable (a :: as) = score a :: viableScores score viable as := by
  rw [viableScores,
    List.filter_cons_of_pos (p := fun a => affirms (viable a)) (affirms_eq_true_iff.mpr h)]
  rfl

omit [Scalar α] in
theorem viableScores_cons_of_neg {a : A} (h : viable a ≠ .ok true) (as : List A) :
    viableScores score viable (a :: as) = viableScores score viable as := by
  rw [viableScores,
    List.filter_cons_of_neg (p := fun a => affirms (viable a)) (mt affirms_eq_true_iff.mp h)]
  rfl

/-- Every action can be checked, and the viable ones have these scores, all of which count. -/
structure Scored (score : A → Except String α) (viable : A → Except String Bool)
    (actions : List A) (scores : List α) : Prop where
  checked : ∀ a ∈ actions, ∃ answer, viable a = .ok answer
  scores_eq : viableScores score viable actions = scores.map .ok
  isScore : ∀ x ∈ scores, IsScore x

theorem checked_of_ok {r : Evaluation α}
    (h : (c.evaluate moral actions score viable).outcome = .ok r) :
    ∀ a ∈ actions, ∃ answer, viable a = .ok answer := by
  have hcourse := course_evaluate c moral actions score viable
  generalize c.evaluate moral actions score viable = t at hcourse h
  cases hcourse with
  | uncheckable => cases h
  | noChoice hnone => exact fun a ha => ⟨false, hnone a ha⟩
  | unscorable => cases h
  | outOfRange => cases h
  | scored scores hchecked hsome hscores => exact hchecked

theorem forall₂_askScore_iff {scores : List α} :
    List.Forall₂ (fun a x => askScore score a = .ok x) (viableActions viable actions) scores ↔
      viableScores score viable actions = scores.map .ok ∧ ∀ x ∈ scores, IsScore x := by
  rw [← map_score_viableActions]
  generalize viableActions viable actions = elements
  constructor
  · intro h
    induction h with
    | nil => exact ⟨rfl, nofun⟩
    | cons hx _ ih =>
        obtain ⟨hok, hscore⟩ := askScore_eq_ok_iff.mp hx
        refine ⟨?_, List.forall_mem_cons.mpr ⟨hscore, ih.2⟩⟩
        rw [List.map_cons, List.map_cons, hok, ih.1]
  · rintro ⟨heq, hscores⟩
    induction scores generalizing elements with
    | nil =>
        rw [List.map_eq_nil_iff.mp heq]
        exact .nil
    | cons x xs ih =>
        obtain ⟨a, as, rfl, ha, has⟩ := List.map_eq_cons_iff.mp heq
        obtain ⟨hx, hxs⟩ := List.forall_mem_cons.mp hscores
        exact .cons (askScore_of_ok ha hx) (ih as has hxs)

theorem evaluate_eq_ok_iff {r : Evaluation α} :
    (c.evaluate moral actions score viable).outcome = .ok r ↔
      ∃ scores, Scored score viable actions scores ∧
        r = c.summarize moral.entropy actions.length scores := by
  constructor
  · intro h
    have hchecked := checked_of_ok h
    rw [evaluate_of_checked hchecked] at h
    rcases answers_or_first_failure (askScore score) (viableActions viable actions) with
      ⟨scores, hall⟩ | ⟨before, b, after, e, hsplit, hbefore, hfails⟩
    · rw [survey_of_forall₂ hall] at h
      obtain ⟨heq, hscores⟩ := forall₂_askScore_iff.mp hall
      exact ⟨scores, ⟨hchecked, heq, hscores⟩, (Except.ok.inj h).symm⟩
    · rw [hsplit, survey_of_fails after hbefore hfails] at h
      cases h
  · rintro ⟨scores, ⟨hchecked, heq, hscores⟩, rfl⟩
    rw [evaluate_of_checked hchecked, survey_of_forall₂ (forall₂_askScore_iff.mpr ⟨heq, hscores⟩)]
    rfl

theorem moralEntropy_of_ok {r : Evaluation α}
    (h : (c.evaluate moral actions score viable).outcome = .ok r) :
    r.moralEntropy = moral.entropy := by
  obtain ⟨scores, -, rfl⟩ := evaluate_eq_ok_iff.mp h
  unfold summarize
  split <;> rfl

end Vigil.Constraint
