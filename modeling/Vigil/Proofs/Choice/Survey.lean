import Mathlib.Data.List.Forall2
import Vigil.Choice.Evaluation

/-!
# Surveys

A survey asks one question about each element of a list and stops at the first
failure.  It succeeds if and only if every question does, and what it has asked
about tells where it stopped.
-/

namespace Vigil.Constraint

section Survey

variable {β γ ε : Type} {ask : β → Except ε γ}

theorem survey_cons_ok {b : β} {c : γ} (hb : ask b = .ok c) (bs : List β) :
    survey ask (b :: bs) = (b :: (survey ask bs).1, (survey ask bs).2.map (c :: ·)) := by
  simp only [survey, hb]

theorem survey_cons_error {b : β} {e : ε} (hb : ask b = .error e) (bs : List β) :
    survey ask (b :: bs) = ([b], .error e) := by
  simp only [survey, hb]

theorem survey_of_forall₂ {elements : List β} {answers : List γ}
    (h : List.Forall₂ (fun b c => ask b = .ok c) elements answers) :
    survey ask elements = (elements, .ok answers) := by
  induction h with
  | nil => rfl
  | cons hb _ ih =>
      rw [survey_cons_ok hb, ih]
      rfl

theorem survey_of_fails {before : List β} (after : List β) {b : β} {e : ε}
    (hbefore : ∀ a ∈ before, ∃ c, ask a = .ok c) (hb : ask b = .error e) :
    survey ask (before ++ b :: after) = (before ++ [b], .error e) := by
  induction before with
  | nil => exact survey_cons_error hb after
  | cons a as ih =>
      obtain ⟨c, hc⟩ := hbefore a List.mem_cons_self
      rw [List.cons_append, survey_cons_ok hc,
        ih fun x hx => hbefore x (List.mem_cons_of_mem _ hx)]
      rfl

/-- All questions about a list have answers, or there is a first that fails. -/
theorem answers_or_first_failure (ask : β → Except ε γ) (elements : List β) :
    (∃ answers, List.Forall₂ (fun b c => ask b = .ok c) elements answers) ∨
      ∃ before b after e, elements = before ++ b :: after ∧
        (∀ a ∈ before, ∃ c, ask a = .ok c) ∧ ask b = .error e := by
  induction elements with
  | nil => exact Or.inl ⟨[], .nil⟩
  | cons b bs ih =>
      cases hb : ask b with
      | error e => exact Or.inr ⟨[], b, bs, e, rfl, by simp, hb⟩
      | ok c =>
          rcases ih with ⟨answers, hall⟩ | ⟨before, d, after, e, rfl, hbefore, hd⟩
          · exact Or.inl ⟨c :: answers, .cons hb hall⟩
          · refine Or.inr ⟨b :: before, d, after, e, rfl, ?_, hd⟩
            intro a ha
            rcases List.mem_cons.mp ha with rfl | ha
            · exact ⟨c, hb⟩
            · exact hbefore a ha

end Survey

end Vigil.Constraint
