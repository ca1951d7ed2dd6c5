import Vigil.Network.Basic
import Vigil.Text.Quoted
/-!
# Inspection texts

A queue, a monitor and a layer each have a text that shows their whole state on
one line, for people who look for a fault.  Names stand in quotes.
-/

namespace Vigil.Inspection

def group (title : String) (fields : List (String × String)) : String :=
  title ++ " \x7b " ++ ", ".intercalate (fields.map fun f => f.1 ++ ": " ++ f.2) ++ " \x7d"

def sequence (texts : List String) : String := "[" ++ ", ".intercalate texts ++ "]"

def flag (b : Bool) : String := if b then "true" else "false"

def value : Ternary → String
  | .negative => "Negative"
  | .neutral => "Neutral"
  | .positive => "Positive"

def item (i : Attention.Item) : String :=
  group "AttentionItem"
    [("monitor", Text.quoted i.monitor), ("value", value i.value),
      ("sequence", toString i.sequence)]

def queue (q : Attention.Queue) : String :=
  group "AttentionQueue"
    [("capacity", toString q.capacity), ("items", sequence (q.items.map item)),
      ("next_sequence", toString q.next), ("evicted_count", toString q.evicted)]

def statistics (s : Statistics) : String :=
  group "MonitorStatistics"
    [("total_checks", toString s.totalChecks), ("optimal", toString s.optimal),
      ("borderline", toString s.borderline), ("non_optimal", toString s.nonOptimal),
      ("failed_checks", toString s.failedChecks), ("escalations", toString s.escalations),
      ("last_value", match s.lastValue with
        | none => "None"
        | some v => "Some(" ++ value v ++ ")")]

/-- The checker of a monitor has no text; two dots stand for it. -/
def monitor {σ : Type} (m : Monitor σ) : String :=
  "SubconsciousMonitor \x7b " ++ ", ".intercalate
    ["name: " ++ Text.quoted m.name, "has_sink: " ++ flag m.isBound,
      "stats: " ++ statistics m.statistics, ".."] ++ " \x7d"

def layer (l : Layer) : String :=
  group "ConsciousLayer"
    [("monitors", sequence (l.registry.names.map Text.quoted)), ("attention", queue l.queue)]

end Vigil.Inspection
