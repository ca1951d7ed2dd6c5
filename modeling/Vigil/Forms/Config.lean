import Vigil.Config.Basic
import Vigil.Json.Form
/-!
# The form of a configuration

Sections and fields may be left out and then have their default values; a null
stands only for the absent floor of the diversity.
-/

namespace Vigil

open Form (fieldOr optional object?)

instance : Form AttentionConfig where
  toJson c := .object [("max_attention_items", toJson c.maxAttentionItems)]
  ofJson? j := do
    let j ← object? j
    let d : AttentionConfig := {}
    let maxAttentionItems ← fieldOr j "max_attention_items" d.maxAttentionItems
    return { maxAttentionItems }

instance : Form ChoiceConfig where
  toJson c := .object <|
    [("bins", toJson c.bins), ("high_threshold", toJson c.highThreshold),
      ("low_threshold", toJson c.lowThreshold)] ++
    match c.minDiversity with
    | none => []
    | some x => [("min_diversity", toJson x)]
  ofJson? j := do
    let j ← object? j
    let d : ChoiceConfig := {}
    let lowThreshold ← fieldOr j "low_threshold" d.lowThreshold
    let highThreshold ← fieldOr j "high_threshold" d.highThreshold
    let minDiversity ← optional Float j "min_diversity"
    let bins ← fieldOr j "bins" d.bins
    return { lowThreshold, highThreshold, minDiversity, bins }

instance : Form PacMonitorConfig where
  toJson c := .object [("enabled", toJson c.enabled), ("name", toJson c.name)]
  ofJson? j := do
    let j ← object? j
    let d : PacMonitorConfig := {}
    let enabled ← fieldOr j "enabled" d.enabled
    let name ← fieldOr j "name" d.name
    return { enabled, name }

instance : Form Config where
  toJson c := .object [("attention", toJson c.attention), ("choice", toJson c.choice),
    ("pac_monitor", toJson c.pacMonitor)]
  ofJson? j := do
    let j ← object? j
    let attention ← fieldOr j "attention" ({} : AttentionConfig)
    let choice ← fieldOr j "choice" ({} : ChoiceConfig)
    let pacMonitor ← fieldOr j "pac_monitor" ({} : PacMonitorConfig)
    return { attention, choice, pacMonitor }

end Vigil
