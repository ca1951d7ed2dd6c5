import Vigil.Json.Basic
/-!
# JSON texts

How texts are read and written is the matter of a codec.  A text gives a number as it
is written, and which double that is read as is left to the codec, because readers
differ in the last place.  Of a codec it matters that what it has written is read again
as it was.  A double may be written as any decimal that is nearest to it.
-/

namespace Vigil.Json

/-- How deep arrays and objects may nest in a text. -/
def deepest : Nat := 127

/-- A value with a text, in which arrays and objects nest at most so deep.  Its doubles
are finite, and the fields of its objects stand in the order of their names. -/
inductive IsPrintable : (depth : Nat) → Json → Prop
  | null {depth : Nat} : IsPrintable depth .null
  | boolean {depth : Nat} (b : Bool) : IsPrintable depth (.boolean b)
  | string {depth : Nat} (s : String) : IsPrintable depth (.string s)
  | integer {depth : Nat} (n : Int) : IsPrintable depth (.ofInt n)
  | float {depth : Nat} {x : Float} (hx : x.isFinite = true) :
      IsPrintable depth (.number (.ofFloat x))
  | array {depth : Nat} {items : List Json} (h : ∀ j ∈ items, IsPrintable depth j) :
      IsPrintable (depth + 1) (.array items)
  | object {depth : Nat} {fields : List (String × Json)}
      (hsorted : (fields.map Prod.fst).Pairwise (· < ·))
      (h : ∀ f ∈ fields, IsPrintable depth f.2) : IsPrintable (depth + 1) (.object fields)

/-- Data that say the same as a value does.  All is as it was, but that another decimal
may stand for a double, as long as the double is the nearest to it. -/
inductive Shows : Json → Json → Prop
  | null : Shows .null .null
  | boolean (b : Bool) : Shows (.boolean b) (.boolean b)
  | string (s : String) : Shows (.string s) (.string s)
  | integer (n : Int) : Shows (.ofInt n) (.ofInt n)
  | float {x : Float} {n : Numeral} (hpoint : n.whole = false) (hnearest : n.signedNearest = x) :
      Shows (.number (.ofFloat x)) (.number n)
  | array {items shown : List Json} (hlength : items.length = shown.length)
      (h : ∀ p ∈ items.zip shown, Shows p.1 p.2) : Shows (.array items) (.array shown)
  | object {fields shown : List (String × Json)}
      (hnames : fields.map Prod.fst = shown.map Prod.fst)
      (h : ∀ p ∈ fields.zip shown, Shows p.1.2 p.2.2) : Shows (.object fields) (.object shown)

/-- A reader and a writer of texts, and a reader of numbers as doubles. -/
structure Codec where
  parse? : String → Option Json
  float? : Numeral → Option Float
  pretty : Json → String

namespace Codec

/-- What a program may rely on: a value with a text is read from its text again. -/
structure IsFaithful (codec : Codec) : Prop where
  parse?_pretty : ∀ j : Json, IsPrintable deepest j →
    ∃ shown, codec.parse? (codec.pretty j) = some shown ∧ Shows j shown

/-- A number of the data, as a double. -/
def readFloat? (codec : Codec) : Json → Option Float
  | .number n => codec.float? n
  | _ => none

end Codec

end Vigil.Json
