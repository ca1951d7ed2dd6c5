import Vigil.Choice.Diversity
import Vigil.Choice.Error
import Vigil.Ternary.Basic
/-!
# Thresholds

An aggregate is positive from the high threshold on, negative up to the low one,
and neutral between them.  A floor for the diversity may turn a positive verdict
into a neutral one.  All comparisons allow a small slack, for an average that
misses a threshold by rounding alone.
-/

namespace Vigil

structure Thresholds (α : Type) where
  low : α
  high : α
  minDiversity : Option α
deriving Repr

namespace Thresholds

variable {α : Type} [Scalar α]

/-- The slack of every comparison. -/
def slack : α := OfScientific.ofScientific 1 true 9

def defaultLow : α := OfScientific.ofScientific 7 true 1

def defaultHigh : α := OfScientific.ofScientific 9 true 1

def default : Thresholds α := ⟨defaultLow, defaultHigh, none⟩

/-- Thresholds in the unit interval, the low one not above the high one. -/
def new (low high : α) : Except (ChoiceError α) (Thresholds α) :=
  if !(Scalar.inUnit low && Scalar.inUnit high) then .error (.bandOutOfRange low high)
  else if high < low then .error (.bandReversed low high)
  else .ok ⟨low, high, none⟩

/-- Adds a floor for the diversity, within the unit interval. -/
def withMinDiversity (t : Thresholds α) (minDiversity : α) :
    Except (ChoiceError α) (Thresholds α) :=
  if Scalar.inUnit minDiversity then .ok { t with minDiversity := some minDiversity }
  else .error (.floorOutOfRange minDiversity)

/-- Thresholds with or without a floor for the diversity. -/
def make (low high : α) (minDiversity : Option α) : Except (ChoiceError α) (Thresholds α) := do
  let t ← new low high
  match minDiversity with
  | none => return t
  | some m => t.withMinDiversity m

/-- Whether a diversity misses the floor. -/
def missesFloor (t : Thresholds α) (diversity : α) : Bool :=
  match t.minDiversity with
  | none => false
  | some m => decide (diversity < m - slack)

def classify (t : Thresholds α) (aggregate diversity : α) : Ternary :=
  if t.high - slack ≤ aggregate then
    if t.missesFloor diversity then .neutral else .positive
  else if aggregate ≤ t.low + slack then .negative
  else .neutral

@[simp] theorem missesFloor_of_none {t : Thresholds α} (h : t.minDiversity = none)
    (diversity : α) : t.missesFloor diversity = false := by
  simp [missesFloor, h]

end Thresholds
end Vigil
