import Vigil.Choice.Diversity
import Vigil.Choice.Error
import Vigil.Dictionary
/-!
# Moral states

A moral state weighs dimensions by numbers that are finite and not negative.  It
lists them by name, so that every sum over it runs in the same order.
-/

namespace Vigil

structure MoralState (α : Type) where
  weights : Dictionary α

namespace MoralState

variable {α : Type} [Scalar α]

def isWeight (w : α) : Bool := Scalar.isFinite w && !decide (w < Scalar.zero)

/-- Adds weights one after the other.  The first invalid one is reported; a
later weight of a dimension replaces an earlier one. -/
def addWeights (state : Dictionary α) :
    List (String × α) → Except (ChoiceError α) (Dictionary α)
  | [] => .ok state
  | (dimension, weight) :: rest =>
    if isWeight weight then addWeights (state.insert dimension weight) rest
    else .error (.moralWeight dimension weight)

def ofWeights (weights : List (String × α)) : Except (ChoiceError α) (MoralState α) :=
  (addWeights .empty weights).map .mk

def total (m : MoralState α) : α := Scalar.sum m.weights.values

/-- The weights as shares of their total, all zero without a positive total. -/
def normalized (m : MoralState α) : Dictionary α :=
  m.weights.map fun w => if Scalar.zero < m.total then w / m.total else Scalar.zero

/-- How evenly the weight is spread over the dimensions. -/
def entropy (m : MoralState α) : α :=
  if m.total ≤ Scalar.zero then Scalar.zero
  else Diversity.normalizedEntropy m.normalized.values m.weights.size

@[simp] theorem names_normalized (m : MoralState α) : m.normalized.names = m.weights.names := by
  simp [normalized]

end MoralState
end Vigil
