/-!
# Erosion of choice

A tracker watches how many viable actions there are from one evaluation to the
next.  It keeps the last five counts and the length of the current run of drops,
and raises an alert when the run reaches a threshold.
-/

namespace Vigil

inductive Trend
  | expanding
  | stable
  | eroding
deriving DecidableEq, Repr

namespace Trend

def all : List Trend := [expanding, stable, eroding]

def name : Trend → String
  | expanding => "expanding"
  | stable => "stable"
  | eroding => "eroding"

def ofName? (s : String) : Option Trend := all.find? fun t => t.name == s

@[simp] theorem ofName?_name (t : Trend) : ofName? t.name = some t := by
  cases t <;> decide

/-- Whether no count is below the one before it. -/
def neverDrops (counts : List Nat) : Bool :=
  (counts.zip counts.tail).all fun p => decide (p.1 ≤ p.2)

/-- Whether no count is above the one before it. -/
def neverRises (counts : List Nat) : Bool :=
  (counts.zip counts.tail).all fun p => decide (p.2 ≤ p.1)

/-- Two counts at least are needed to tell a direction; a level series expands. -/
def ofCounts (counts : List Nat) : Trend :=
  if counts.length < 2 then stable
  else if neverDrops counts then expanding
  else if neverRises counts then eroding
  else stable

end Trend

structure Tracker where
  history : List Nat
  alertThreshold : Nat
  streak : Nat
deriving DecidableEq, Repr

namespace Tracker

def window : Nat := 5

def defaultThreshold : Nat := 3

def new (alertThreshold : Nat) : Tracker := ⟨[], alertThreshold, 0⟩

def default : Tracker := new defaultThreshold

/-- The last elements of a list, so many of them. -/
def lastOf {β : Type} (count : Nat) (xs : List β) : List β := xs.drop (xs.length - count)

/-- The run of drops after one more count. -/
def nextStreak (t : Tracker) (count : Nat) : Nat :=
  match t.history.getLast? with
  | none => t.streak
  | some previous => if count < previous then t.streak + 1 else 0

def record (t : Tracker) (count : Nat) : Tracker :=
  { t with history := lastOf window (t.history ++ [count]), streak := t.nextStreak count }

/-- Whether the run of drops has reached the threshold. -/
def alerts (t : Tracker) : Bool := decide (t.alertThreshold ≤ t.streak)

/-- Records a count, and tells whether to alert. -/
def track (t : Tracker) (count : Nat) : Bool × Tracker :=
  let recorded := t.record count
  (recorded.alerts, recorded)

def trend (t : Tracker) : Trend := .ofCounts t.history

def reset (t : Tracker) : Tracker := new t.alertThreshold

@[simp] theorem alertThreshold_record (t : Tracker) (count : Nat) :
    (t.record count).alertThreshold = t.alertThreshold := rfl

@[simp] theorem history_record (t : Tracker) (count : Nat) :
    (t.record count).history = lastOf window (t.history ++ [count]) := rfl

@[simp] theorem streak_record (t : Tracker) (count : Nat) :
    (t.record count).streak = t.nextStreak count := rfl

theorem nextStreak_of_none {t : Tracker} (h : t.history.getLast? = none) (count : Nat) :
    t.nextStreak count = t.streak := by
  simp [nextStreak, h]

theorem nextStreak_of_some {t : Tracker} {previous : Nat}
    (h : t.history.getLast? = some previous) (count : Nat) :
    t.nextStreak count = if count < previous then t.streak + 1 else 0 := by
  simp [nextStreak, h]

theorem length_lastOf {β : Type} (count : Nat) (xs : List β) :
    (lastOf count xs).length = min count xs.length := by
  simp only [lastOf, List.length_drop]
  omega

end Tracker
end Vigil
