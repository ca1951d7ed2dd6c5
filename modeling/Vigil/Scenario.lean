import Vigil.Forms.Choice
import Vigil.Json.Codec
/-!
# Scenarios

A scenario states the moral weights and the actions on offer.  An action is
viable unless it says otherwise.  The fields of a scenario and of an action may
have names, and then a known one must not be repeated and an unknown one is
skipped; or they stand in an array in their order, where the last ones may be
missing but none may follow.
-/

namespace Vigil

structure Scenario.Action where
  name : String
  pacScore : Float
  viable : Bool
deriving Repr

structure Scenario where
  moral : MoralState Float
  actions : List Scenario.Action

namespace Scenario

def fieldNames : List String := ["moral_state", "actions"]

def Action.fieldNames : List String := ["name", "pac_score", "viable"]

/-- The record with fields of the given names, if there is one: an object in which each
of them occurs once at most, or an array of no more values than there are names. -/
def record? (names : List String) : Json → Option Json
  | .object fields =>
    if names.all fun name => decide ((fields.map (·.1)).count name ≤ 1) then some (.object fields)
    else none
  | .array items => if items.length ≤ names.length then some (.object (names.zip items)) else none
  | _ => none

section Codec

variable (json : Json.Codec)

def readAction (j : Json) : Option Action := do
  let j ← record? Action.fieldNames j
  let name ← Form.required String j "name"
  let pacScore ← (j.field? "pac_score").bind json.readFloat?
  let viable ← Form.fieldOr j "viable" true
  return { name, pacScore, viable }

def ofJson? (j : Json) : Option Scenario := do
  let j ← record? fieldNames j
  let moral ← (j.field? "moral_state").bind (MoralState.ofJson? json.readFloat?)
  let actions ← (← (← j.field? "actions").items?).mapM (readAction json)
  return { moral, actions }

def ofText? (text : String) : Option Scenario := (json.parse? text).bind (ofJson? json)

end Codec

end Scenario
end Vigil
