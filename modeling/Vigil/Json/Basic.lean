import Vigil.Decimal.Integer
import Vigil.Decimal.Layout
import Vigil.Decimal.Nearest
/-!
# JSON values

Numbers are kept as they are written, as exact decimals, and are turned into
integers or doubles only where a field asks for one.  A whole numeral is one
without point and exponent; only such a numeral is an integer.
-/

namespace Vigil

/-- A number as written: the decimal `digits * 10 ^ exponent` with its sign. -/
structure Numeral where
  negative : Bool
  digits : Nat
  exponent : Int
  whole : Bool
deriving DecidableEq, Repr

inductive Json
  /-- A string that is no text, or an object with such a name: it may be skipped,
  but it has no value. -/
  | illFormed
  | null
  | boolean (b : Bool)
  | number (n : Numeral)
  | string (s : String)
  | array (items : List Json)
  | object (fields : List (String × Json))

namespace Numeral

def ofInt (n : Int) : Numeral := ⟨decide (n < 0), n.natAbs, 0, true⟩

/-- The shortest decimal of a finite double. -/
def ofFloat (x : Float) : Numeral :=
  let d := Decimal.shortest Decimal.tiesToEven x
  ⟨Decimal.isNegative x, d.digits, d.exponent, false⟩

/-- The integer of a whole numeral.  Minus zero is none. -/
def toInt? (n : Numeral) : Option Int :=
  if n.whole && !(n.negative && n.digits == 0) then
    some (if n.negative then -Int.ofNat n.digits else Int.ofNat n.digits)
  else none

def signedNearest (n : Numeral) : Float :=
  let x := Decimal.nearest n.digits n.exponent
  if n.negative then -x else x

/-- The double nearest to the numeral, unless that is infinite. -/
def toFloat? (n : Numeral) : Option Float :=
  let x := n.signedNearest
  if x.isInf then none else some x

end Numeral

namespace Json

def ofInt (n : Int) : Json := .number (.ofInt n)

def ofNat (n : Nat) : Json := .number (.ofInt n)

/-- A finite double as a number; there is no numeral for the others. -/
def ofFloat (x : Float) : Json :=
  if x.isFinite then .number (.ofFloat x) else .null

/-- The value of a field, the last one if the name occurs again. -/
def field? (name : String) : Json → Option Json
  | object fields => (fields.reverse.find? fun f => f.1 == name).map (·.2)
  | _ => none

def fieldOrNull (name : String) (j : Json) : Json := (j.field? name).getD null

def string? : Json → Option String
  | string s => some s
  | _ => none

def boolean? : Json → Option Bool
  | boolean b => some b
  | _ => none

def float? : Json → Option Float
  | number n => n.toFloat?
  | _ => none

def items? : Json → Option (List Json)
  | array items => some items
  | _ => none

def int64? : Json → Option Int
  | number n => n.toInt?.filter Decimal.fitsInt64
  | _ => none

def nat64? : Json → Option Nat
  | number n =>
    match n.toInt? with
    | some (.ofNat k) => if k ≤ Decimal.maxNat64 then some k else none
    | _ => none
  | _ => none

@[simp] theorem string?_string (s : String) : (string s).string? = some s := rfl

end Json
end Vigil
