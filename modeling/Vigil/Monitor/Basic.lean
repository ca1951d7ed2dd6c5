import Vigil.Attention.Item
import Vigil.Json.Basic
import Vigil.Monitor.Statistics
import Vigil.Text.Blank
/-!
# Monitors

A monitor judges structured outputs by a checker of its own.  What is not
optimal is meant for the sink bound to the monitor at that moment.  A monitor
does not deliver anything itself: a check yields the value, the monitor with the
check counted, and where the value has to go.  An accepted delivery is
acknowledged afterwards.
-/

namespace Vigil

/-- A checker finds a judgment on an output, or fails to. -/
abbrev Checker := Json → Option Judgment

inductive MonitorError
  | emptyName
  | duplicateName (name : String)
  | alreadyBound (name : String)
  | capacity (e : Attention.CapacityError)
  | escalation (monitor reason : String)
deriving DecidableEq, Repr

def MonitorError.message : MonitorError → String
  | .emptyName => "monitor name must not be empty"
  | .duplicateName name => s!"duplicate monitor name: '{name}'"
  | .alreadyBound name => s!"monitor '{name}' is already bound to a sink"
  | .capacity e => e.message
  | .escalation monitor reason => s!"escalation from '{monitor}' failed: {reason}"

/-- One escalated judgment on its way from a monitor to a sink. -/
structure Escalation where
  monitor : String
  value : Ternary
deriving DecidableEq, Repr

/-- A monitor over sinks of identity `σ`. -/
structure Monitor (σ : Type) where
  name : String
  checker : Checker
  sink : Option σ := none
  statistics : Statistics := {}

namespace Monitor

variable {σ : Type}

/-- A fresh monitor.  Its name has a visible character. -/
def new (name : String) (checker : Checker) : Except MonitorError (Monitor σ) :=
  if Text.isAllBlank name then .error .emptyName else .ok { name, checker }

def isBound (m : Monitor σ) : Bool := m.sink.isSome

def bind (m : Monitor σ) (sink : σ) : Monitor σ := { m with sink := some sink }

def unbind (m : Monitor σ) : Monitor σ := { m with sink := none }

/-- Binds a sink if none is bound, and tells whether it did. -/
def tryBind (m : Monitor σ) (sink : σ) : Bool × Monitor σ :=
  if m.isBound then (false, m) else (true, m.bind sink)

/-- Unbinds the sink if it is the given one, and tells whether it did. -/
def unbindFrom [DecidableEq σ] (m : Monitor σ) (sink : σ) : Bool × Monitor σ :=
  if m.sink = some sink then (true, m.unbind) else (false, m)

def observe (m : Monitor σ) (output : Json) : Ternary × Monitor σ :=
  let finding := m.checker output
  ((finding.getD .nonOptimal).toTernary,
    { m with statistics := m.statistics.record finding })

/-- Where a value has to go: to the bound sink, unless it is the best. -/
def destination? (m : Monitor σ) (value : Ternary) : Option σ :=
  if value = .positive then none else m.sink

def acknowledge (m : Monitor σ) : Monitor σ :=
  { m with statistics := { m.statistics with escalations := m.statistics.escalations + 1 } }

/-- Whether nothing is wrong: the last check was optimal, or there was none. -/
def isSubconscious (m : Monitor σ) : Bool :=
  match m.statistics.lastValue with
  | none | some .positive => true
  | _ => false

@[simp] theorem sink_observe (m : Monitor σ) (output : Json) :
    (m.observe output).2.sink = m.sink := rfl

@[simp] theorem name_unbindFrom [DecidableEq σ] (m : Monitor σ) (sink : σ) :
    (m.unbindFrom sink).2.name = m.name := by
  unfold unbindFrom
  split <;> rfl

@[simp] theorem name_tryBind (m : Monitor σ) (sink : σ) :
    (m.tryBind sink).2.name = m.name := by
  unfold tryBind
  split <;> rfl

@[simp] theorem checker_unbindFrom [DecidableEq σ] (m : Monitor σ) (sink : σ) :
    (m.unbindFrom sink).2.checker = m.checker := by
  unfold unbindFrom
  split <;> rfl

@[simp] theorem checker_tryBind (m : Monitor σ) (sink : σ) :
    (m.tryBind sink).2.checker = m.checker := by
  unfold tryBind
  split <;> rfl

/-- An attempt to bind what is bound leaves the monitor as it is. -/
theorem tryBind_of_bound {m : Monitor σ} (h : m.isBound = true) (sink : σ) :
    m.tryBind sink = (false, m) := by
  rw [tryBind, if_pos h]

theorem tryBind_of_free {m : Monitor σ} (h : m.isBound = false) (sink : σ) :
    m.tryBind sink = (true, m.bind sink) := by
  rw [tryBind, h, if_neg Bool.false_ne_true]

end Monitor
end Vigil
