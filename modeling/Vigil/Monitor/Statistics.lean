import Vigil.Monitor.Judgment
/-!
# Statistics of a monitor

Every check is counted once by its finding, and once more if the checker failed.
Escalations are counted apart, when a sink has taken them.
-/

namespace Vigil

structure Statistics where
  totalChecks : Nat := 0
  optimal : Nat := 0
  borderline : Nat := 0
  nonOptimal : Nat := 0
  failedChecks : Nat := 0
  escalations : Nat := 0
  lastValue : Option Ternary := none
deriving DecidableEq, Repr

namespace Statistics

def count (s : Statistics) : Judgment → Statistics
  | .optimal => { s with optimal := s.optimal + 1 }
  | .borderline => { s with borderline := s.borderline + 1 }
  | .nonOptimal => { s with nonOptimal := s.nonOptimal + 1 }

/-- Counts a check.  A checker that failed has found nothing, which counts as
not optimal. -/
def record (s : Statistics) (finding : Option Judgment) : Statistics :=
  let judgment := finding.getD .nonOptimal
  let s := s.count judgment
  { s with
    totalChecks := s.totalChecks + 1
    failedChecks := if finding.isNone then s.failedChecks + 1 else s.failedChecks
    lastValue := some judgment.toTernary }

def rate (s : Statistics) (count : Nat) : Float :=
  if s.totalChecks = 0 then 0 else Float.ofNat count / Float.ofNat s.totalChecks

def optimalRate (s : Statistics) : Float := s.rate s.optimal

def borderlineRate (s : Statistics) : Float := s.rate s.borderline

def nonOptimalRate (s : Statistics) : Float := s.rate s.nonOptimal

@[simp] theorem escalations_record (s : Statistics) (finding : Option Judgment) :
    (s.record finding).escalations = s.escalations := by
  cases h : finding.getD .nonOptimal <;> simp [record, count, h]

end Statistics
end Vigil
