import Vigil.Decimal.Layout
/-!
# What goes wrong in an evaluation

Each cause keeps the values that show it.
-/

namespace Vigil

/-- The two questions that an evaluation asks about an action. -/
inductive Capability
  | viability
  | score
deriving DecidableEq, Repr

def Capability.name : Capability → String
  | .viability => "viability_checker"
  | .score => "pac_evaluator"

inductive ChoiceError (α : Type)
  | capability (asked : Capability) (index : Nat) (reason : String)
  | scoreOutOfRange (index : Nat) (score : α)
  | bandOutOfRange (low high : α)
  | bandReversed (low high : α)
  | floorOutOfRange (minDiversity : α)
  | binCount (given : Nat)
  | moralWeight (dimension : String) (weight : α)
deriving Repr

namespace ChoiceError

def invalidThresholds (text : String) : String := "invalid thresholds: " ++ text

def message (e : ChoiceError Float) : String :=
  let figures := Decimal.plain.write
  match e with
  | .capability asked index reason =>
    s!"{asked.name} failed on action #{index}: {reason}"
  | .scoreOutOfRange index score =>
    s!"PAC score {figures score} for action #{index} is outside [0, 1]"
  | .bandOutOfRange low high =>
    invalidThresholds s!"low ({figures low}) and high ({figures high}) must lie in [0, 1]"
  | .bandReversed low high =>
    invalidThresholds s!"low ({figures low}) exceeds high ({figures high})"
  | .floorOutOfRange minDiversity =>
    invalidThresholds s!"min_diversity ({figures minDiversity}) must lie in [0, 1]"
  | .binCount given => s!"invalid bin count: {given} (must be at least 2)"
  | .moralWeight dimension weight =>
    s!"invalid weight {figures weight} for moral dimension '{dimension}'"

end ChoiceError
end Vigil
