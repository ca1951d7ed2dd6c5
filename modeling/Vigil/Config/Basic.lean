import Vigil.Choice.Evaluation
import Vigil.Monitor.Basic
/-!
# Configurations

A configuration has three sections: the size of the attention queue, the
thresholds of the evaluation, and the monitor of verdicts.  Validation runs
through them in this order and reports the first fault.
-/

namespace Vigil

structure AttentionConfig where
  /-- Any integer; validation asks for a positive one. -/
  maxAttentionItems : Int := 10
deriving Repr, BEq

structure ChoiceConfig where
  lowThreshold : Float := Thresholds.defaultLow
  highThreshold : Float := Thresholds.defaultHigh
  minDiversity : Option Float := none
  bins : Nat := Diversity.defaultBins
deriving Repr, BEq

structure PacMonitorConfig where
  enabled : Bool := true
  name : String := "pac"
deriving Repr, BEq

structure Config where
  attention : AttentionConfig := {}
  choice : ChoiceConfig := {}
  pacMonitor : PacMonitorConfig := {}
deriving Repr, BEq

inductive EngineError
  | monitor (e : MonitorError)
  | choice (e : ChoiceError Float)
  | unknownMonitor (name : String)
  /-- The monitor of verdicts is enabled and has no visible name. -/
  | namelessMonitor
  /-- A text is no configuration, or a configuration has no text. -/
  | malformed
  /-- A file is missing or is not text. -/
  | unreadable (path : String)
  /-- A file is text, but no configuration. -/
  | unparsable (path : String)
deriving Repr

def EngineError.message : EngineError → String
  | .monitor e => "Monitor error: " ++ e.message
  | .choice e => "Axiom error: " ++ e.message
  | .unknownMonitor name => "Unknown monitor: " ++ name
  | .namelessMonitor => "Configuration error: pac_monitor.name must not be empty"
  | .malformed => "Configuration error: the text is no configuration"
  | .unreadable path => "Failed to read " ++ path
  | .unparsable path => "Failed to parse " ++ path

namespace Config

def default : Config := {}

def capacity (c : Config) : Except EngineError Nat :=
  (Attention.validateCapacity c.attention.maxAttentionItems).mapError fun e =>
    .monitor (.capacity e)

def constraint (c : Config) : Except EngineError (Constraint Float) :=
  Except.mapError .choice do
    let t ← Thresholds.make c.choice.lowThreshold c.choice.highThreshold c.choice.minDiversity
    (Constraint.ofThresholds t).withBins c.choice.bins

/-- An enabled monitor needs a name with a visible character. -/
def validateMonitor (c : Config) : Except EngineError Unit :=
  if c.pacMonitor.enabled && Text.isAllBlank c.pacMonitor.name then .error .namelessMonitor
  else .ok ()

def validate (c : Config) : Except EngineError Unit := do
  let _ ← c.capacity
  let _ ← c.constraint
  c.validateMonitor

end Config
end Vigil
