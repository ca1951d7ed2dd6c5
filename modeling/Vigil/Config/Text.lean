import Vigil.Config.Basic
import Vigil.Toml.Basic
/-!
# Configurations as text

Every section and every field may be left out and then has its default value;
what is not known is skipped.  In the place of a section may also stand the values
of its fields, in their order.  An integer stands for a double, but not the other
way round.  A floor for the diversity is written only if there is one.
-/

namespace Vigil.Config

open Toml (Codec Table Value Scalar Section)

/-- The value of a field, or its default if the field is missing. -/
def fieldOr {β : Type} (t : Table) (key : String) (fallback : β)
    (read : Value → Option β) : Option β :=
  match t.lookup key with
  | none => some fallback
  | some v => read v

def readInt : Value → Option Int
  | .integer n => some n.toInt
  | _ => none

def readNat : Value → Option Nat
  | .integer n => if 0 ≤ n.toInt then some n.toInt.toNat else none
  | _ => none

def readFloat : Value → Option Float
  | .float x => some x
  | .integer n => some (Float.ofInt n.toInt)
  | _ => none

def readBool : Value → Option Bool
  | .boolean b => some b
  | _ => none

def readString : Value → Option String
  | .string s => some s
  | _ => none

/-- The fields that a section may have, in their order. -/
def keysOf : (part : String) → List String
  | "attention" => ["max_attention_items"]
  | "choice" => ["low_threshold", "high_threshold", "min_diversity", "bins"]
  | "pac_monitor" => ["enabled", "name"]
  | _ => []

/-- The fields of a section.  The values of an array belong to the fields in turn, and
those beyond the last field to none.  A date in the place of a section has no fields. -/
def readSection (keys : List String) : Value → Option Table
  | .table entries => some entries
  | .array items => some (keys.zip items)
  | .dateTime => some []
  | _ => none

/-- The fields of the section under a name, none if it is missing. -/
def sectionOf (t : Table) (part : String) : Option Table :=
  fieldOr t part [] (readSection (keysOf part))

def attentionOf (t : Table) : Option AttentionConfig := do
  let maxAttentionItems ← fieldOr t "max_attention_items"
    ({} : AttentionConfig).maxAttentionItems readInt
  return { maxAttentionItems }

def choiceOf (t : Table) : Option ChoiceConfig := do
  let d : ChoiceConfig := {}
  let lowThreshold ← fieldOr t "low_threshold" d.lowThreshold readFloat
  let highThreshold ← fieldOr t "high_threshold" d.highThreshold readFloat
  let minDiversity ← fieldOr t "min_diversity" none fun v => (readFloat v).map some
  let bins ← fieldOr t "bins" d.bins readNat
  return { lowThreshold, highThreshold, minDiversity, bins }

def pacMonitorOf (t : Table) : Option PacMonitorConfig := do
  let d : PacMonitorConfig := {}
  let enabled ← fieldOr t "enabled" d.enabled readBool
  let name ← fieldOr t "name" d.name readString
  return { enabled, name }

/-- The configuration that a table describes, not yet validated. -/
def ofTable? (t : Table) : Option Config := do
  let attention ← attentionOf (← sectionOf t "attention")
  let choice ← choiceOf (← sectionOf t "choice")
  let pacMonitor ← pacMonitorOf (← sectionOf t "pac_monitor")
  return { attention, choice, pacMonitor }

/-- The sections that describe a configuration. -/
def toSections (c : Config) : List Section := [
  ⟨"attention", [("max_attention_items", .integer c.attention.maxAttentionItems)]⟩,
  ⟨"choice",
    [("low_threshold", .float c.choice.lowThreshold),
      ("high_threshold", .float c.choice.highThreshold)] ++
    (match c.choice.minDiversity with
      | none => []
      | some x => [("min_diversity", .float x)]) ++
    [("bins", .integer c.choice.bins)]⟩,
  ⟨"pac_monitor",
    [("enabled", .boolean c.pacMonitor.enabled), ("name", .string c.pacMonitor.name)]⟩]

def validated (c : Config) : Except EngineError Config := do
  c.validate
  return c

section Codec

variable (toml : Codec)

/-- Reads a valid configuration, with a given error for what is none. -/
def ofTextOr (fault : EngineError) (text : String) : Except EngineError Config :=
  match (toml.parse? text).bind ofTable? with
  | none => .error fault
  | some c => c.validated

def ofText (text : String) : Except EngineError Config := ofTextOr toml .malformed text

/-- Reads a valid configuration from the contents of a file, if there is one. -/
def ofFile (path : String) (contents : Option ByteArray) : Except EngineError Config :=
  match contents.bind String.fromUTF8? with
  | none => .error (.unreadable path)
  | some text => ofTextOr toml (.unparsable path) text

def toText (c : Config) : Except EngineError String :=
  match toml.write? c.toSections with
  | none => .error .malformed
  | some text => .ok text

end Codec

variable {toml : Codec}

theorem validated_eq_ok_iff (c d : Config) :
    c.validated = .ok d ↔ c.validate = .ok () ∧ c = d := by
  unfold validated
  cases c.validate with
  | error err => simp [bind, Except.bind]
  | ok => simp [bind, Except.bind, pure, Except.pure]

theorem validate_of_ofTextOr {fault : EngineError} {text : String} {c : Config}
    (h : ofTextOr toml fault text = .ok c) : c.validate = .ok () := by
  unfold ofTextOr at h
  split at h
  · cases h
  · obtain ⟨hvalid, rfl⟩ := (validated_eq_ok_iff _ _).mp h
    exact hvalid

theorem validate_of_ofFile {path : String} {contents : Option ByteArray} {c : Config}
    (h : ofFile toml path contents = .ok c) : c.validate = .ok () := by
  unfold ofFile at h
  split at h
  · cases h
  · exact validate_of_ofTextOr h

end Vigil.Config
