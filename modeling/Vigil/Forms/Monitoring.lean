import Vigil.Json.Form
import Vigil.Network.Registration
/-!
# Forms of judgments, items, statistics and reports
-/

namespace Vigil

open Form (required optional orNull)

instance : Form Ternary where
  toJson v := .string v.tag
  ofJson? j := (Form.tag? j).bind Ternary.ofTag?

@[simp] theorem Ternary.ofJson?_toJson (v : Ternary) : Form.ofJson? (toJson v) = some v := by
  simp [Form.ofJson?, toJson, Form.tag?]

namespace Judgment

def all : List Judgment := [optimal, borderline, nonOptimal]

def name : Judgment → String
  | optimal => "Optimal"
  | borderline => "Borderline"
  | nonOptimal => "NonOptimal"

def ofName? (s : String) : Option Judgment := all.find? fun j => j.name == s

@[simp] theorem ofName?_name (j : Judgment) : ofName? j.name = some j := by
  cases j <;> decide

end Judgment

instance : Form Judgment where
  toJson j := .string j.name
  ofJson? j := (Form.tag? j).bind Judgment.ofName?

@[simp] theorem Judgment.ofJson?_toJson (j : Judgment) : Form.ofJson? (toJson j) = some j := by
  simp [Form.ofJson?, toJson, Form.tag?]

instance : Form Escalation where
  toJson e := .object [("monitor", toJson e.monitor), ("value", toJson e.value)]
  ofJson? j := do
    let monitor ← required String j "monitor"
    let value ← required Ternary j "value"
    return { monitor, value }

instance : Form Attention.Item where
  toJson i := .object
    [("monitor", toJson i.monitor), ("sequence", toJson i.sequence), ("value", toJson i.value)]
  ofJson? j := do
    let monitor ← required String j "monitor"
    let value ← required Ternary j "value"
    let sequence ← required Nat j "sequence"
    return { monitor, value, sequence }

def Attention.Item.toFlat (i : Attention.Item) : Json := .object
  [("monitor", toJson i.monitor), ("sequence", toJson i.sequence),
    ("state", .string i.value.tag), ("state_value", .ofInt i.value.toInt)]

instance : Form Network.Report where
  toJson r := .object
    [("attention_items", toJson r.attentionItems), ("evicted", toJson r.evicted),
      ("items", toJson r.items), ("subconscious_monitors", toJson r.subconsciousMonitors),
      ("total_monitors", toJson r.totalMonitors)]
  ofJson? j := do
    let attentionItems ← required Nat j "attention_items"
    let items ← required (List Attention.Item) j "items"
    let subconsciousMonitors ← required (List String) j "subconscious_monitors"
    let totalMonitors ← required Nat j "total_monitors"
    let evicted ← required Nat j "evicted"
    return { attentionItems, items, subconsciousMonitors, totalMonitors, evicted }

instance : Form Statistics where
  toJson s := .object
    [("borderline", toJson s.borderline), ("escalations", toJson s.escalations),
      ("failed_checks", toJson s.failedChecks), ("last_value", orNull s.lastValue),
      ("non_optimal", toJson s.nonOptimal), ("optimal", toJson s.optimal),
      ("total_checks", toJson s.totalChecks)]
  ofJson? j := do
    let totalChecks ← required Nat j "total_checks"
    let optimal ← required Nat j "optimal"
    let borderline ← required Nat j "borderline"
    let nonOptimal ← required Nat j "non_optimal"
    let failedChecks ← required Nat j "failed_checks"
    let escalations ← required Nat j "escalations"
    let lastValue ← optional Ternary j "last_value"
    return { totalChecks, optimal, borderline, nonOptimal, failedChecks, escalations, lastValue }

end Vigil
