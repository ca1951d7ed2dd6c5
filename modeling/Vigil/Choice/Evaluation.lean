import Vigil.Choice.Moral
import Vigil.Choice.Thresholds
/-!
# Evaluation of a choice

An evaluation asks first which actions are viable, then what each viable action
scores.  It stops at the first question that fails and at the first score
outside the unit interval.  The questions asked are part of its outcome.

Without a viable action there is no choice left, and the verdict is negative
whatever the thresholds say.
-/

namespace Vigil

structure Evaluation (α : Type) where
  verdict : Ternary
  aggregate : α
  /-- The greatest score, and zero without scores. -/
  best : α
  diversity : α
  moralEntropy : α
  viableCount : Nat
  totalCount : Nat
deriving Repr

namespace Evaluation

def hasViableOptions {α : Type} (e : Evaluation α) : Bool := decide (0 < e.viableCount)

def choicePreserved {α : Type} (e : Evaluation α) : Bool := e.verdict != .negative

end Evaluation

/-- One question asked about one action. -/
structure Question where
  capability : Capability
  index : Nat
deriving DecidableEq, Repr

/-- What an evaluation yields, and the questions it asked, in their order. -/
structure Trial (α : Type) where
  outcome : Except (ChoiceError α) (Evaluation α)
  asked : List Question

/-- An evaluator: thresholds and a number of bins. -/
structure Constraint (α : Type) where
  thresholds : Thresholds α
  bins : Nat
deriving Repr

namespace Constraint

variable {α : Type} [Scalar α]

def ofThresholds (thresholds : Thresholds α) : Constraint α := ⟨thresholds, Diversity.defaultBins⟩

def default : Constraint α := ofThresholds .default

/-- Sets the number of bins, of which there are at least two. -/
def withBins (c : Constraint α) (bins : Nat) : Except (ChoiceError α) (Constraint α) :=
  if bins < 2 then .error (.binCount bins) else .ok { c with bins }

/-- Asks a question about each of a list in turn, up to the first failure.
Yields what was asked about, and the answers if none failed. -/
def survey {β γ ε : Type} (ask : β → Except ε γ) : List β → List β × Except ε (List γ)
  | [] => ([], .ok [])
  | b :: bs =>
    match ask b with
    | .error e => ([b], .error e)
    | .ok c =>
      let rest := survey ask bs
      (b :: rest.1, rest.2.map (c :: ·))

/-- A score counts if it is a finite number of the unit interval. -/
def acceptsScore (score : α) : Bool := Scalar.isFinite score && Scalar.inUnit score

variable {A : Type}

def askViability (viable : A → Except String Bool) (a : A × Nat) :
    Except (ChoiceError α) Bool :=
  match viable a.1 with
  | .ok answer => .ok answer
  | .error reason => .error (.capability .viability a.2 reason)

def askScore (score : A → Except String α) (a : A × Nat) : Except (ChoiceError α) α :=
  match score a.1 with
  | .error reason => .error (.capability .score a.2 reason)
  | .ok x => if acceptsScore x then .ok x else .error (.scoreOutOfRange a.2 x)

/-- The elements whose flag is set. -/
def select {β : Type} (elements : List β) (flags : List Bool) : List β :=
  ((elements.zip flags).filter (·.2)).map (·.1)

def mean (scores : List α) : α := Scalar.sum scores / (scores.length : α)

def greatest (scores : List α) : α := scores.foldl Scalar.max Scalar.zero

/-- What the scores of the viable actions amount to. -/
def summarize (c : Constraint α) (moralEntropy : α) (totalCount : Nat) (scores : List α) :
    Evaluation α :=
  if scores.isEmpty then
    { verdict := .negative, aggregate := Scalar.zero, best := Scalar.zero,
      diversity := Scalar.zero, moralEntropy, viableCount := 0, totalCount }
  else
    let aggregate := mean scores
    let diversity := Diversity.scoreDiversity scores c.bins
    { verdict := c.thresholds.classify aggregate diversity, aggregate,
      best := greatest scores, diversity, moralEntropy,
      viableCount := scores.length, totalCount }

def evaluate (c : Constraint α) (moral : MoralState α) (actions : List A)
    (score : A → Except String α) (viable : A → Except String Bool) : Trial α :=
  let numbered := actions.zipIdx
  let (checked, flags) := survey (askViability viable) numbered
  let checks := checked.map fun a => Question.mk .viability a.2
  match flags with
  | .error e => ⟨.error e, checks⟩
  | .ok flags =>
    let (scored, scores) := survey (askScore score) (select numbered flags)
    ⟨scores.map (c.summarize moral.entropy actions.length),
      checks ++ scored.map fun a => Question.mk .score a.2⟩

@[simp] theorem survey_nil {β γ ε : Type} (ask : β → Except ε γ) :
    survey ask [] = ([], .ok []) := rfl

end Constraint

/-- Evaluates with the default thresholds and bins. -/
def evaluateChoice {α A : Type} [Scalar α] (moral : MoralState α) (actions : List A)
    (score : A → Except String α) (viable : A → Except String Bool) : Trial α :=
  Constraint.default.evaluate moral actions score viable

end Vigil
