import Vigil.Json.Basic
/-!
# Forms

A form is the way a type is kept as data.  Records become objects; a field that
is not known is skipped when a record is read, and a field that may be absent
may also be null.  A tag of an enumeration may stand as the one field of an
object, with nothing in it.
-/

namespace Vigil

class Form (α : Type) where
  toJson : α → Json
  ofJson? : Json → Option α

export Form (toJson)

namespace Form

/-- Reads data as a value of a type, if it has the form of one. -/
def read? (α : Type) [Form α] (j : Json) : Option α := ofJson? j

/-- Reads a field that has to be there. -/
def required (α : Type) [Form α] (j : Json) (name : String) : Option α :=
  (j.field? name).bind ofJson?

/-- Reads a field that may be absent or null. -/
def optional (α : Type) [Form α] (j : Json) (name : String) : Option (Option α) :=
  match j.field? name with
  | none => some none
  | some .null => some none
  | some v => (ofJson? v).map some

def fieldOr {α : Type} [Form α] (j : Json) (name : String) (fallback : α) : Option α :=
  match j.field? name with
  | none => some fallback
  | some v => ofJson? v

/-- Only an object has fields. -/
def object? : Json → Option Json
  | .object fields => some (.object fields)
  | _ => none

def tag? : Json → Option String
  | .string s => some s
  | .object [(s, .null)] => some s
  | _ => none

instance : Form Bool := ⟨.boolean, Json.boolean?⟩
instance : Form String := ⟨.string, Json.string?⟩
instance : Form Nat := ⟨Json.ofNat, Json.nat64?⟩
instance : Form Int := ⟨Json.ofInt, Json.int64?⟩
instance : Form Float := ⟨Json.ofFloat, Json.float?⟩

instance {α : Type} [Form α] : Form (List α) where
  toJson xs := .array (xs.map toJson)
  ofJson? j := j.items?.bind fun items => items.mapM ofJson?

/-- The data of a value that may be missing. -/
def orNull {α : Type} [Form α] : Option α → Json
  | none => .null
  | some a => toJson a

end Form
end Vigil
