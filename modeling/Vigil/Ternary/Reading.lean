import Vigil.Decimal.Integer
import Vigil.Ternary.Basic
import Vigil.Text.Blank
/-!
# Reading a judgment from text

A judgment is written as its tag, in any mixture of ASCII upper and lower case,
or as its integer.  Blank characters around it do not count.  What is no
judgment is reported by its integer if it is one of sixty-four bits, and as it
was given otherwise.
-/

namespace Vigil.Ternary

/-- Turns the twenty-six ASCII small letters into capitals. -/
def capital (c : Char) : Char :=
  if 'a' ≤ c ∧ c ≤ 'z' then Char.ofNat (c.toNat - 32) else c

/-- The judgment whose tag is spelled by the text, up to ASCII case. -/
def ofSpelling? (cs : List Char) : Option Ternary :=
  all.find? fun v => v.tag.toList == cs.map capital

/-- The integer of sixty-four bits spelled by the text. -/
def integer? (cs : List Char) : Option Int :=
  (Decimal.readInteger cs).filter Decimal.fitsInt64

/-- Reads a tag or an integer, with blanks around it. -/
def parse (s : String) : Except Error Ternary :=
  let cs := Text.trim s.toList
  match ofSpelling? cs with
  | some v => .ok v
  | none =>
    match integer? cs with
    | some n => ofInt n
    | none => .error (.value s)

theorem parse_tag (v : Ternary) : parse v.tag = .ok v := by
  cases v <;> rfl

end Vigil.Ternary
