import Vigil.Choice.Erosion
import Vigil.Config.Basic
import Vigil.Network.Delivery
import Vigil.Network.Registration
import Vigil.Ternary.Reading
/-!
# The engine

An engine evaluates choices and watches its own verdicts.  Each evaluation is
shown, as flat data, to a monitor that judges it by its verdict; what that
monitor escalates reaches the engine's one layer.  The number of viable actions
is recorded only when the monitor's check has come through.
-/

namespace Vigil

namespace Evaluation

def toFlat (e : Evaluation Float) : Json := .object [
  ("choice_preserved", .boolean e.choicePreserved),
  ("diversity", .ofFloat e.diversity),
  ("max_pac", .ofFloat e.best),
  ("moral_entropy", .ofFloat e.moralEntropy),
  ("pac_score", .ofFloat e.aggregate),
  ("total_count", .ofNat e.totalCount),
  ("verdict", .string e.verdict.tag),
  ("verdict_value", .ofInt e.verdict.toInt),
  ("viable_count", .ofNat e.viableCount)]

end Evaluation

def judgeVerdict : Checker := fun output => do
  let tag ← (output.fieldOrNull "verdict").string?
  match Ternary.parse tag with
  | .ok verdict => some (.ofTernary verdict)
  | .error _ => none

structure Assessment where
  result : Evaluation Float
  /-- What the monitor of verdicts found, if it is enabled. -/
  monitorValue : Option Ternary
  escalated : Bool
  erosionAlert : Bool
deriving Repr

structure Engine where
  config : Config
  constraint : Constraint Float
  network : Network
  /-- The monitor of verdicts, which stays in use after its removal from the layer. -/
  pacMonitor : Option MonitorId
  tracker : Tracker

namespace Engine

/-- The engine's one layer. -/
def layer : LayerId := 0

def registerPacMonitor (n : Network) (name : String) : Except EngineError (MonitorId × Network) :=
  Except.mapError .monitor do
    let m ← Monitor.new name judgeVerdict
    let (id, n) := n.addMonitor m
    let (outcome, n) := (n.register? layer id).getD (.ok (), n)
    outcome
    return (id, n)

def new (c : Config) : Except EngineError Engine := do
  c.validate
  let l ← (Layer.new (← c.capacity)).mapError .monitor
  let constraint ← c.constraint
  let (_, network) := Network.empty.addLayer l
  let engine : Engine := ⟨c, constraint, network, none, .default⟩
  if c.pacMonitor.enabled then
    let (id, network) ← registerPacMonitor network c.pacMonitor.name
    return { engine with network, pacMonitor := some id }
  else return engine

/-- Shows an evaluation to the monitor of verdicts, if it is enabled. -/
def watch (e : Engine) (result : Evaluation Float) :
    Except MonitorError (Option Ternary) × Network :=
  match e.pacMonitor.bind (e.network.check? · result.toFlat) with
  | none => (.ok none, e.network)
  | some (outcome, n) => (outcome.map some, n)

/-- Evaluates a choice, watches the verdict, and records the viable actions. -/
def assess {A : Type} (e : Engine) (moral : MoralState Float) (actions : List A)
    (score : A → Except String Float) (viable : A → Except String Bool) :
    Except EngineError Assessment × Engine :=
  match (e.constraint.evaluate moral actions score viable).outcome with
  | .error err => (.error (.choice err), e)
  | .ok result =>
    let (outcome, network) := e.watch result
    match outcome with
    | .error err => (.error (.monitor err), { e with network })
    | .ok monitorValue =>
      let (erosionAlert, tracker) := e.tracker.track result.viableCount
      (.ok { result, monitorValue
             escalated := monitorValue.any (· != .positive)
             erosionAlert },
        { e with network, tracker })

/-- Brings a monitor into the network and registers it in the engine's layer. -/
def addMonitor (e : Engine) (m : Monitor Sink) : Except EngineError Unit × Engine :=
  let (id, network) := e.network.addMonitor m
  let (outcome, network) := (network.register? layer id).getD (.ok (), network)
  (outcome.mapError .monitor, { e with network })

/-- Shows an output to the monitor registered under a name. -/
def observe (e : Engine) (name : String) (output : Json) :
    Except EngineError Ternary × Engine :=
  match (e.network.lookup? layer name).bind (e.network.check? · output) with
  | none => (.error (.unknownMonitor name), e)
  | some (outcome, network) => (outcome.mapError .monitor, { e with network })

def report (e : Engine) : Option Network.Report := e.network.report? layer

def attention (e : Engine) : List Attention.Item :=
  match e.network.layers[layer]? with
  | some l => l.queue.items
  | none => []

def viableHistory (e : Engine) : List Nat := e.tracker.history

def trend (e : Engine) : Trend := e.tracker.trend

@[simp] theorem judgeVerdict_toFlat (r : Evaluation Float) :
    judgeVerdict r.toFlat = some (.ofTernary r.verdict) := by
  simp [judgeVerdict, Evaluation.toFlat, Json.fieldOrNull, Json.field?, Ternary.parse_tag]

end Engine
end Vigil
