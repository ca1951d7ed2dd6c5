import Vigil.Ternary.Basic
/-!
# Kleene logic

Conjunction is the smaller of two judgments, disjunction the greater, and
negation turns the order round.  The folds over a sequence start from the
neutral element of their connective, so they judge the empty sequence by the
two extremes.
-/

namespace Vigil.Ternary

def not : Ternary → Ternary
  | negative => positive
  | neutral => neutral
  | positive => negative

def and : Ternary → Ternary → Ternary
  | negative, _ => negative
  | _, negative => negative
  | neutral, _ => neutral
  | _, neutral => neutral
  | positive, positive => positive

def or : Ternary → Ternary → Ternary
  | positive, _ => positive
  | _, positive => positive
  | neutral, _ => neutral
  | _, neutral => neutral
  | negative, negative => negative

def conj (vs : List Ternary) : Ternary := vs.foldl and positive

def disj (vs : List Ternary) : Ternary := vs.foldl or negative

@[simp] theorem not_not (v : Ternary) : v.not.not = v := by
  cases v <;> rfl

@[simp] theorem positive_and (v : Ternary) : positive.and v = v := by
  cases v <;> rfl

@[simp] theorem and_positive (v : Ternary) : v.and positive = v := by
  cases v <;> rfl

theorem and_assoc (u v w : Ternary) : (u.and v).and w = u.and (v.and w) := by
  cases u <;> cases v <;> cases w <;> rfl

theorem not_and (v w : Ternary) : (v.and w).not = v.not.or w.not := by
  cases v <;> cases w <;> rfl

theorem toInt_not (v : Ternary) : v.not.toInt = -v.toInt := by
  cases v <;> rfl

@[simp] theorem conj_nil : conj [] = positive := rfl

@[simp] theorem disj_nil : disj [] = negative := rfl

end Vigil.Ternary
