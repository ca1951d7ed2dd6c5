import Vigil.Proofs.Choice.Survey

/-!
# The course of an evaluation

An evaluation takes one of five courses.  Which one it takes, what it yields and
what it asks on the way depends on the positions of the actions in the list and
on nothing else: on the first that cannot be checked, on the viable ones among
them, and on the first of these without a score.
-/

namespace Vigil.Constraint

section Viability

variable {α A : Type} {viable : A → Except String Bool} {actions : List A}

/-- Whether an answer is a yes. -/
def affirms {ε : Type} : Except ε Bool → Bool
  | .ok answer => answer
  | .error _ => false

/-- The positions of the viable actions, ascending. -/
def viablePositions (viable : A → Except String Bool) (actions : List A) : List Nat :=
  (List.range actions.length).filter fun i => actions[i]?.any fun a => affirms (viable a)

/-- The viable actions with their positions. -/
def viableActions (viable : A → Except String Bool) (actions : List A) : List (A × Nat) :=
  actions.zipIdx.filter fun a => affirms (viable a.1)

theorem getElem?_of_mem_viableActions {a : A × Nat} (h : a ∈ viableActions viable actions) :
    actions[a.2]? = some a.1 :=
  List.mem_zipIdx_iff_getElem?.mp (List.mem_filter.mp h).1

theorem mem_viableActions {a : A} {i : Nat} (hget : actions[i]? = some a)
    (hviable : affirms (viable a) = true) : (a, i) ∈ viableActions viable actions :=
  List.mem_filter.mpr ⟨List.mem_zipIdx_iff_getElem?.mpr hget, hviable⟩

theorem affirms_of_mem_viableActions {a : A × Nat} (h : a ∈ viableActions viable actions) :
    affirms (viable a.1) = true :=
  (List.mem_filter.mp h).2

theorem map_fst_viableActions (viable : A → Except String Bool) (actions : List A) :
    (viableActions viable actions).map (·.1) = actions.filter fun a => affirms (viable a) := by
  unfold viableActions
  rw [← Function.comp_def (fun a => affirms (viable a)) Prod.fst, ← List.filter_map,
    List.zipIdx_map_fst]

theorem map_snd_zipIdx (actions : List A) :
    actions.zipIdx.map (·.2) = List.range actions.length := by
  rw [List.range_eq_range']
  exact List.zipIdx_map_snd 0 actions

/-- Filtering keeps the positions. -/
theorem map_snd_viableActions (viable : A → Except String Bool) (actions : List A) :
    (viableActions viable actions).map (·.2) = viablePositions viable actions := by
  unfold viableActions viablePositions
  rw [← map_snd_zipIdx, List.filter_map]
  congr 1
  apply List.filter_congr
  intro a ha
  simp only [Function.comp_apply, List.mem_zipIdx_iff_getElem?.mp ha, Option.any_some]

theorem askViability_of_ok {a : A × Nat} {answer : Bool} (h : viable a.1 = .ok answer) :
    askViability (α := α) viable a = .ok answer := by
  simp only [askViability, h]

theorem askViability_of_error {a : A × Nat} {reason : String} (h : viable a.1 = .error reason) :
    askViability (α := α) viable a = .error (.capability .viability a.2 reason) := by
  simp only [askViability, h]

theorem viable_eq_false_of_viablePositions_eq_nil
    (hchecked : ∀ a ∈ actions, ∃ answer, viable a = .ok answer)
    (h : viablePositions viable actions = []) : ∀ a ∈ actions, viable a = .ok false := by
  intro a ha
  obtain ⟨answer, hanswer⟩ := hchecked a ha
  cases answer with
  | false => exact hanswer
  | true =>
      obtain ⟨i, hi, rfl⟩ := List.getElem_of_mem ha
      have hno := List.filter_eq_nil_iff.mp h i (List.mem_range.mpr hi)
      simp [List.getElem?_eq_getElem hi, hanswer, affirms] at hno

theorem select_map (p : A × Nat → Bool) (elements : List (A × Nat)) :
    select elements (elements.map p) = elements.filter p := by
  induction elements with
  | nil => rfl
  | cons a as ih =>
      simp only [select] at ih
      by_cases ha : p a = true <;> simp [select, ha, ih]

end Viability

variable {α : Type} [Scalar α] {A : Type}

/-- The same question about several positions, in turn. -/
def questions (capability : Capability) (positions : List Nat) : List Question :=
  positions.map (Question.mk capability)

/-- A finite number of the unit interval. -/
def IsScore (x : α) : Prop :=
  Scalar.isFinite x = true ∧ Scalar.zero ≤ x ∧ x ≤ Scalar.one

/-- The courses of an evaluation, each with its outcome and its questions. -/
inductive Course (c : Constraint α) (moral : MoralState α) (actions : List A)
    (score : A → Except String α) (viable : A → Except String Bool) : Trial α → Prop
  /-- The action at `i` is the first that cannot be checked. -/
  | uncheckable (i : Nat) (reason : String)
      (hbefore : ∀ j < i, ∃ answer, actions[j]?.map viable = some (.ok answer))
      (hfails : actions[i]?.map viable = some (.error reason)) :
      Course c moral actions score viable
        ⟨.error (.capability .viability i reason), questions .viability (List.range (i + 1))⟩
  /-- All actions are checked, and none is viable. -/
  | noChoice (hnone : ∀ a ∈ actions, viable a = .ok false) :
      Course c moral actions score viable
        ⟨.ok { verdict := .negative, aggregate := Scalar.zero, best := Scalar.zero,
               diversity := Scalar.zero, moralEntropy := moral.entropy,
               viableCount := 0, totalCount := actions.length },
          questions .viability (List.range actions.length)⟩
  /-- The action at `i` is the first viable one without a score, for `reason`. -/
  | unscorable (before after : List Nat) (i : Nat) (reason : String)
      (hchecked : ∀ a ∈ actions, ∃ answer, viable a = .ok answer)
      (hsplit : viablePositions viable actions = before ++ i :: after)
      (hbefore : ∀ j ∈ before, ∃ x, actions[j]?.map score = some (.ok x) ∧ IsScore x)
      (hfails : actions[i]?.map score = some (.error reason)) :
      Course c moral actions score viable
        ⟨.error (.capability .score i reason),
          questions .viability (List.range actions.length) ++ questions .score (before ++ [i])⟩
  /-- The action at `i` is the first viable one whose score does not count. -/
  | outOfRange (before after : List Nat) (i : Nat) (x : α)
      (hchecked : ∀ a ∈ actions, ∃ answer, viable a = .ok answer)
      (hsplit : viablePositions viable actions = before ++ i :: after)
      (hbefore : ∀ j ∈ before, ∃ y, actions[j]?.map score = some (.ok y) ∧ IsScore y)
      (hfails : actions[i]?.map score = some (.ok x)) (hx : ¬ IsScore x) :
      Course c moral actions score viable
        ⟨.error (.scoreOutOfRange i x),
          questions .viability (List.range actions.length) ++ questions .score (before ++ [i])⟩
  /-- All actions are checked, some are viable, and each of these has a score. -/
  | scored (scores : List α)
      (hchecked : ∀ a ∈ actions, ∃ answer, viable a = .ok answer)
      (hsome : viablePositions viable actions ≠ [])
      (hscores : List.Forall₂ (fun i x => actions[i]?.map score = some (.ok x) ∧ IsScore x)
        (viablePositions viable actions) scores) :
      Course c moral actions score viable
        ⟨.ok { verdict := c.thresholds.classify (mean scores)
                 (Diversity.scoreDiversity scores c.bins),
               aggregate := mean scores, best := greatest scores,
               diversity := Diversity.scoreDiversity scores c.bins,
               moralEntropy := moral.entropy,
               viableCount := (viablePositions viable actions).length,
               totalCount := actions.length },
          questions .viability (List.range actions.length) ++
            questions .score (viablePositions viable actions)⟩

theorem acceptsScore_eq_true_iff (x : α) : acceptsScore x = true ↔ IsScore x := by
  simp [acceptsScore, IsScore]

section Evaluation

variable {c : Constraint α} {moral : MoralState α} {actions : List A}
  {score : A → Except String α} {viable : A → Except String Bool}

theorem evaluate_of_uncheckable {i : Nat} {reason : String}
    (hbefore : ∀ j < i, ∃ answer, actions[j]?.map viable = some (.ok answer))
    (hfails : actions[i]?.map viable = some (.error reason)) :
    c.evaluate moral actions score viable =
      ⟨.error (.capability .viability i reason), questions .viability (List.range (i + 1))⟩ := by
  obtain ⟨a, ha, hreason⟩ := Option.map_eq_some_iff.mp hfails
  obtain ⟨hi, rfl⟩ := List.getElem?_eq_some_iff.mp ha
  have hlen : i < actions.zipIdx.length := by simpa using hi
  have hget : actions.zipIdx[i] = (actions[i], i) := by simp
  have hsplit : actions.zipIdx =
      actions.zipIdx.take i ++ (actions[i], i) :: actions.zipIdx.drop (i + 1) := by
    rw [← hget, List.getElem_cons_drop, List.take_append_drop]
  have hchecked : ∀ b ∈ actions.zipIdx.take i, ∃ answer,
      askViability (α := α) viable b = .ok answer := by
    intro b hb
    obtain ⟨j, hj, hjb⟩ := List.mem_take_iff_getElem.mp hb
    have hji : j < i := by omega
    obtain ⟨answer, hanswer⟩ := hbefore j hji
    have hbj : actions[j]? = some b.1 := by
      rw [← hjb]
      simp [Nat.lt_trans hji hi]
    rw [hbj, Option.map_some, Option.some.injEq] at hanswer
    exact ⟨answer, askViability_of_ok hanswer⟩
  have hsurvey := survey_of_fails (actions.zipIdx.drop (i + 1)) hchecked
    (askViability_of_error (a := (actions[i], i)) hreason)
  rw [← hsplit] at hsurvey
  have hasked : (actions.zipIdx.take i ++ [(actions[i], i)]).map (·.2) = List.range (i + 1) := by
    rw [List.map_append, List.map_take, map_snd_zipIdx, List.take_range,
      Nat.min_eq_left (Nat.le_of_lt hi), List.range_succ]
    rfl
  simp only [evaluate, hsurvey, questions, ← hasked, List.map_map]
  rfl

/-- If all actions are checked, the viable ones are surveyed for their scores. -/
theorem evaluate_of_checked (hchecked : ∀ a ∈ actions, ∃ answer, viable a = .ok answer) :
    c.evaluate moral actions score viable =
      ⟨(survey (askScore score) (viableActions viable actions)).2.map
          (c.summarize moral.entropy actions.length),
        questions .viability (List.range actions.length) ++
          questions .score
            ((survey (askScore score) (viableActions viable actions)).1.map (·.2))⟩ := by
  have hanswers : List.Forall₂ (fun a answer => askViability (α := α) viable a = .ok answer)
      actions.zipIdx (actions.zipIdx.map fun a => affirms (viable a.1)) := by
    rw [List.forall₂_map_right_iff, List.forall₂_same]
    intro a ha
    obtain ⟨answer, hanswer⟩ := hchecked a.1
      (List.mem_of_getElem? (List.mem_zipIdx_iff_getElem?.mp ha))
    rw [askViability_of_ok hanswer, hanswer]
    rfl
  simp only [evaluate, survey_of_forall₂ hanswers, select_map, questions, ← map_snd_zipIdx,
    List.map_map]
  rfl

theorem evaluate_of_noChoice (hnone : ∀ a ∈ actions, viable a = .ok false) :
    c.evaluate moral actions score viable =
      ⟨.ok { verdict := .negative, aggregate := Scalar.zero, best := Scalar.zero,
             diversity := Scalar.zero, moralEntropy := moral.entropy,
             viableCount := 0, totalCount := actions.length },
        questions .viability (List.range actions.length)⟩ := by
  have hempty : viableActions viable actions = [] := by
    apply List.filter_eq_nil_iff.mpr
    intro a ha
    rw [hnone a.1 (List.mem_of_getElem? (List.mem_zipIdx_iff_getElem?.mp ha))]
    simp [affirms]
  rw [evaluate_of_checked fun a ha => ⟨false, hnone a ha⟩, hempty]
  simp [questions, Except.map, summarize]

theorem askScore_of_ok {a : A × Nat} {x : α} (h : score a.1 = .ok x) (hx : IsScore x) :
    askScore score a = .ok x := by
  simp only [askScore, h, (acceptsScore_eq_true_iff x).mpr hx, if_true]

theorem askScore_of_not_isScore {a : A × Nat} {x : α} (h : score a.1 = .ok x)
    (hx : ¬ IsScore x) : askScore score a = .error (.scoreOutOfRange a.2 x) := by
  have hno : ¬ acceptsScore x = true := fun hyes => hx ((acceptsScore_eq_true_iff x).mp hyes)
  simp only [askScore, h, if_neg hno]

theorem askScore_of_error {a : A × Nat} {reason : String} (h : score a.1 = .error reason) :
    askScore score a = .error (.capability .score a.2 reason) := by
  simp only [askScore, h]

theorem askScore_eq_ok_iff {a : A × Nat} {x : α} :
    askScore score a = .ok x ↔ score a.1 = .ok x ∧ IsScore x := by
  constructor
  · intro h
    cases hs : score a.1 with
    | error reason => simp [askScore_of_error hs] at h
    | ok y =>
        by_cases hy : IsScore y
        · rw [askScore_of_ok hs hy, Except.ok.injEq] at h
          rw [← h]
          exact ⟨rfl, hy⟩
        · simp [askScore_of_not_isScore hs hy] at h
  · rintro ⟨h, hx⟩
    exact askScore_of_ok h hx

/-- The survey of the scores ends at the first viable action without one. -/
theorem evaluate_of_refused {before after : List Nat} {i : Nat} {e : ChoiceError α}
    (hchecked : ∀ a ∈ actions, ∃ answer, viable a = .ok answer)
    (hsplit : viablePositions viable actions = before ++ i :: after)
    (hbefore : ∀ j ∈ before, ∃ x, actions[j]?.map score = some (.ok x) ∧ IsScore x)
    (hfails : ∀ a, actions[i]? = some a → askScore score (a, i) = .error e) :
    c.evaluate moral actions score viable =
      ⟨.error e,
        questions .viability (List.range actions.length) ++ questions .score (before ++ [i])⟩ := by
  rw [← map_snd_viableActions] at hsplit
  obtain ⟨chosen, rest, hchosen, rfl, hrest⟩ := List.map_eq_append_iff.mp hsplit
  obtain ⟨a, others, rfl, rfl, rfl⟩ := List.map_eq_cons_iff.mp hrest
  have hget : ∀ b ∈ chosen ++ a :: others, actions[b.2]? = some b.1 := by
    intro b hb
    exact getElem?_of_mem_viableActions (hchosen ▸ hb)
  have hscored : ∀ b ∈ chosen, ∃ x, askScore score b = .ok x := by
    intro b hb
    obtain ⟨x, hx, hscore⟩ := hbefore b.2 (List.mem_map_of_mem hb)
    rw [hget b (List.mem_append_left _ hb), Option.map_some, Option.some.injEq] at hx
    exact ⟨x, askScore_of_ok hx hscore⟩
  have hlast := hfails a.1 (hget a (by simp))
  rw [evaluate_of_checked hchecked, hchosen, survey_of_fails _ hscored hlast]
  simp [Except.map]

theorem evaluate_of_scored {scores : List α}
    (hchecked : ∀ a ∈ actions, ∃ answer, viable a = .ok answer)
    (hscores : List.Forall₂ (fun i x => actions[i]?.map score = some (.ok x) ∧ IsScore x)
      (viablePositions viable actions) scores) :
    c.evaluate moral actions score viable =
      ⟨.ok (c.summarize moral.entropy actions.length scores),
        questions .viability (List.range actions.length) ++
          questions .score (viablePositions viable actions)⟩ := by
  rw [← map_snd_viableActions, List.forall₂_map_left_iff] at hscores
  have hall : List.Forall₂ (fun a x => askScore score a = .ok x)
      (viableActions viable actions) scores := by
    apply List.forall₂_of_length_eq_of_get hscores.length_eq
    intro i hi hi'
    obtain ⟨hx, hscore⟩ := hscores.get hi hi'
    rw [getElem?_of_mem_viableActions (List.get_mem _ _), Option.map_some,
      Option.some.injEq] at hx
    exact askScore_of_ok hx hscore
  rw [evaluate_of_checked hchecked, survey_of_forall₂ hall, map_snd_viableActions]
  rfl

end Evaluation

section Course

variable {c : Constraint α} {moral : MoralState α} {actions : List A}
  {score : A → Except String α} {viable : A → Except String Bool}

theorem evaluate_eq_of_course {t : Trial α} (h : c.Course moral actions score viable t) :
    c.evaluate moral actions score viable = t := by
  cases h with
  | uncheckable i reason hbefore hfails => exact evaluate_of_uncheckable hbefore hfails
  | noChoice hnone => exact evaluate_of_noChoice hnone
  | unscorable before after i reason hchecked hsplit hbefore hfails =>
      apply evaluate_of_refused hchecked hsplit hbefore
      intro a ha
      rw [ha, Option.map_some, Option.some.injEq] at hfails
      exact askScore_of_error hfails
  | outOfRange before after i x hchecked hsplit hbefore hfails hx =>
      apply evaluate_of_refused hchecked hsplit hbefore
      intro a ha
      rw [ha, Option.map_some, Option.some.injEq] at hfails
      exact askScore_of_not_isScore hfails hx
  | scored scores hchecked hsome hscores =>
      have hlen : scores.length = (viablePositions viable actions).length :=
        hscores.length_eq.symm
      have hne : scores.isEmpty = false := by
        rw [List.isEmpty_eq_false_iff, ← List.length_pos_iff, hlen]
        exact List.length_pos_iff.mpr hsome
      rw [evaluate_of_scored hchecked hscores]
      simp [summarize, hne, hlen]

theorem course_evaluate_of_viable
    (hchecked : ∀ a ∈ actions, ∃ answer, viable a = .ok answer)
    (hsome : viablePositions viable actions ≠ []) :
    c.Course moral actions score viable (c.evaluate moral actions score viable) := by
  have hget : ∀ b ∈ viableActions viable actions, actions[b.2]? = some b.1 :=
    fun b hb => getElem?_of_mem_viableActions hb
  have hpositions := map_snd_viableActions viable actions
  rcases answers_or_first_failure (askScore score) (viableActions viable actions) with
    ⟨scores, hall⟩ | ⟨before, b, after, e, hsplit, hbefore, hfails⟩
  · have hscores : List.Forall₂ (fun i x => actions[i]?.map score = some (.ok x) ∧ IsScore x)
        (viablePositions viable actions) scores := by
      rw [← hpositions, List.forall₂_map_left_iff]
      apply List.forall₂_of_length_eq_of_get hall.length_eq
      intro i hi hi'
      obtain ⟨hx, hscore⟩ := askScore_eq_ok_iff.mp (hall.get hi hi')
      rw [hget _ (List.get_mem _ _), Option.map_some, hx]
      exact ⟨rfl, hscore⟩
    have hcourse : c.Course moral actions score viable _ :=
      .scored scores hchecked hsome hscores
    rwa [evaluate_eq_of_course hcourse]
  · rw [hsplit, List.map_append, List.map_cons] at hpositions
    have hscored : ∀ j ∈ before.map (·.2), ∃ x,
        actions[j]?.map score = some (.ok x) ∧ IsScore x := by
      intro j hj
      obtain ⟨d, hd, rfl⟩ := List.mem_map.mp hj
      obtain ⟨x, hx⟩ := hbefore d hd
      obtain ⟨hok, hscore⟩ := askScore_eq_ok_iff.mp hx
      refine ⟨x, ?_, hscore⟩
      rw [hget d (by simp [hsplit, hd]), Option.map_some, hok]
    have hb : actions[b.2]? = some b.1 := hget b (by simp [hsplit])
    cases hs : score b.1 with
    | error reason =>
        have hlast : actions[b.2]?.map score = some (.error reason) := by
          rw [hb, Option.map_some, hs]
        have hcourse : c.Course moral actions score viable _ :=
          .unscorable (before.map (·.2)) (after.map (·.2)) b.2 reason hchecked hpositions.symm
            hscored hlast
        rwa [evaluate_eq_of_course hcourse]
    | ok x =>
        have hx : ¬ IsScore x := by
          intro hyes
          rw [askScore_of_ok hs hyes] at hfails
          cases hfails
        have hlast : actions[b.2]?.map score = some (.ok x) := by
          rw [hb, Option.map_some, hs]
        have hcourse : c.Course moral actions score viable _ :=
          .outOfRange (before.map (·.2)) (after.map (·.2)) b.2 x hchecked hpositions.symm
            hscored hlast hx
        rwa [evaluate_eq_of_course hcourse]

/-- Every evaluation takes one of the courses. -/
theorem course_evaluate (c : Constraint α) (moral : MoralState α) (actions : List A)
    (score : A → Except String α) (viable : A → Except String Bool) :
    c.Course moral actions score viable (c.evaluate moral actions score viable) := by
  rcases answers_or_first_failure viable actions with
    ⟨answers, hanswers⟩ | ⟨before, a, after, reason, rfl, hbefore, hfails⟩
  · have hchecked : ∀ a ∈ actions, ∃ answer, viable a = .ok answer := by
      intro a ha
      obtain ⟨i, hi, rfl⟩ := List.getElem_of_mem ha
      exact ⟨_, hanswers.get hi (hanswers.length_eq ▸ hi)⟩
    by_cases hsome : viablePositions viable actions = []
    · have hnone := viable_eq_false_of_viablePositions_eq_nil hchecked hsome
      rw [evaluate_of_noChoice hnone]
      exact .noChoice hnone
    · exact course_evaluate_of_viable hchecked hsome
  · have hfirst : ∀ j < before.length, ∃ answer,
        (before ++ a :: after)[j]?.map viable = some (.ok answer) := by
      intro j hj
      obtain ⟨answer, hanswer⟩ := hbefore before[j] (List.getElem_mem hj)
      refine ⟨answer, ?_⟩
      rw [List.getElem?_append_left hj, List.getElem?_eq_getElem hj, Option.map_some, hanswer]
    have hlast : (before ++ a :: after)[before.length]?.map viable = some (.error reason) := by
      simp [hfails]
    rw [evaluate_of_uncheckable hfirst hlast]
    exact .uncheckable before.length reason hfirst hlast

/-- An evaluation yields and asks what its course says, and nothing else. -/
theorem evaluate_eq_iff_course (c : Constraint α) (moral : MoralState α) (actions : List A)
    (score : A → Except String α) (viable : A → Except String Bool) (t : Trial α) :
    c.evaluate moral actions score viable = t ↔ c.Course moral actions score viable t := by
  constructor
  · rintro rfl
    exact course_evaluate c moral actions score viable
  · exact evaluate_eq_of_course

end Course

end Vigil.Constraint
