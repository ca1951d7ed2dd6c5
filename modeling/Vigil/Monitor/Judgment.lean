import Vigil.Ternary.Basic
/-!
# Judgments of a checker

A checker finds an output optimal, borderline or not optimal.  The three findings
are the three ternary judgments under other names; all but the best escalate.
-/

namespace Vigil

inductive Judgment
  | optimal
  | borderline
  | nonOptimal
deriving DecidableEq, Repr

namespace Judgment

def toTernary : Judgment → Ternary
  | optimal => .positive
  | borderline => .neutral
  | nonOptimal => .negative

def ofTernary : Ternary → Judgment
  | .positive => optimal
  | .neutral => borderline
  | .negative => nonOptimal

def ofBool (acceptable : Bool) : Judgment := if acceptable then optimal else nonOptimal

def escalates : Judgment → Bool
  | optimal => false
  | _ => true

@[simp] theorem toTernary_ofTernary (v : Ternary) : (ofTernary v).toTernary = v := by
  cases v <;> rfl

end Judgment
end Vigil
