import Vigil.Choice.Erosion
import Vigil.Engine
import Vigil.Forms.Monitoring
/-!
# Forms of moral states, thresholds, evaluations and trackers

A moral state is an object of weights, and is read only if every weight is
valid.  Thresholds, evaluations and trackers are read as they stand.
-/

namespace Vigil

open Form (required optional orNull)

/-- The weights in an object; the last one counts if a dimension occurs again. -/
def weightsOf? (float? : Json → Option Float) (fields : List (String × Json)) :
    Option (Dictionary Float) :=
  fields.foldlM (fun d f => (float? f.2).map (d.insert f.1)) .empty

/-- The moral state that an object of weights describes. -/
def MoralState.ofJson? (float? : Json → Option Float) : Json → Option (MoralState Float)
  | .object fields => do
    let weights ← weightsOf? float? fields
    (MoralState.ofWeights weights.entries).toOption
  | _ => none

instance : Form (MoralState Float) where
  toJson m := .object (m.weights.entries.map fun e => (e.1, toJson e.2))
  ofJson? := MoralState.ofJson? Json.float?

instance : Form (Thresholds Float) where
  toJson t := .object
    [("high", toJson t.high), ("low", toJson t.low), ("min_diversity", orNull t.minDiversity)]
  ofJson? j := do
    let low ← required Float j "low"
    let high ← required Float j "high"
    let minDiversity ← optional Float j "min_diversity"
    return { low, high, minDiversity }

instance : Form (Evaluation Float) where
  toJson e := .object
    [("aggregate_pac", toJson e.aggregate), ("diversity", toJson e.diversity),
      ("max_pac", toJson e.best), ("moral_entropy", toJson e.moralEntropy),
      ("total_count", toJson e.totalCount), ("verdict", toJson e.verdict),
      ("viable_count", toJson e.viableCount)]
  ofJson? j := do
    let verdict ← required Ternary j "verdict"
    let aggregate ← required Float j "aggregate_pac"
    let best ← required Float j "max_pac"
    let diversity ← required Float j "diversity"
    let moralEntropy ← required Float j "moral_entropy"
    let viableCount ← required Nat j "viable_count"
    let totalCount ← required Nat j "total_count"
    return { verdict, aggregate, best, diversity, moralEntropy, viableCount, totalCount }

instance : Form Trend where
  toJson t := .string t.name
  ofJson? j := (Form.tag? j).bind Trend.ofName?

@[simp] theorem Trend.ofJson?_toJson (t : Trend) : Form.ofJson? (toJson t) = some t := by
  simp [Form.ofJson?, toJson, Form.tag?]

instance : Form Tracker where
  toJson t := .object
    [("alert_threshold", toJson t.alertThreshold), ("consecutive_decreases", toJson t.streak),
      ("history", toJson t.history)]
  ofJson? j := do
    let history ← required (List Nat) j "history"
    let alertThreshold ← required Nat j "alert_threshold"
    let streak ← required Nat j "consecutive_decreases"
    return { history, alertThreshold, streak }

instance : Form Assessment where
  toJson a := .object
    [("erosion_alert", toJson a.erosionAlert), ("escalated", toJson a.escalated),
      ("monitor_value", orNull a.monitorValue), ("result", toJson a.result)]
  ofJson? j := do
    let result ← required (Evaluation Float) j "result"
    let monitorValue ← optional Ternary j "monitor_value"
    let escalated ← required Bool j "escalated"
    let erosionAlert ← required Bool j "erosion_alert"
    return { result, monitorValue, escalated, erosionAlert }

end Vigil
