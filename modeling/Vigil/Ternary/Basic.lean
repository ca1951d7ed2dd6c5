/-!
# Ternary judgments

A judgment is negative, neutral or positive.  It has a tag, an integer from
minus one to one, and a code of two bits; each of the three names it uniquely.
The order is that of the integers.
-/

namespace Vigil

/-- A judgment with a middle ground. -/
inductive Ternary
  | negative
  | neutral
  | positive
deriving DecidableEq, Repr

namespace Ternary

instance : Inhabited Ternary := ⟨neutral⟩

def all : List Ternary := [negative, neutral, positive]

def toInt : Ternary → Int
  | negative => -1
  | neutral => 0
  | positive => 1

def tag : Ternary → String
  | negative => "NEGATIVE"
  | neutral => "NEUTRAL"
  | positive => "POSITIVE"

/-- The two-bit code.  The pair of ones is not in use. -/
def bits : Ternary → Nat × Nat
  | negative => (0, 0)
  | neutral => (0, 1)
  | positive => (1, 0)

/-- The integer between a bar and a bracket, as a state is written. -/
def ket (v : Ternary) : String := s!"|{v.toInt}⟩"

/-- Why an integer, a text or a pair of bits is no judgment. -/
inductive Error
  | value (given : String)
  | code (first second : Nat)
deriving DecidableEq, Repr

def Error.message : Error → String
  | .value given =>
    s!"invalid ternary value: {given} (expected -1, 0, 1 or NEGATIVE, NEUTRAL, POSITIVE)"
  | .code first second => s!"invalid binary encoding: ({first}, {second})"

def ofInt (n : Int) : Except Error Ternary :=
  if n = -1 then .ok negative
  else if n = 0 then .ok neutral
  else if n = 1 then .ok positive
  else .error (.value (toString n))

def ofBits : Nat → Nat → Except Error Ternary
  | 0, 0 => .ok negative
  | 0, 1 => .ok neutral
  | 1, 0 => .ok positive
  | first, second => .error (.code first second)

/-- The judgment whose tag is exactly the given text. -/
def ofTag? (s : String) : Option Ternary :=
  all.find? fun v => v.tag == s

instance : LE Ternary := ⟨fun v w => v.toInt ≤ w.toInt⟩
instance : LT Ternary := ⟨fun v w => v.toInt < w.toInt⟩

instance (v w : Ternary) : Decidable (v ≤ w) := inferInstanceAs (Decidable (v.toInt ≤ w.toInt))
instance (v w : Ternary) : Decidable (v < w) := inferInstanceAs (Decidable (v.toInt < w.toInt))

theorem le_iff_toInt_le (v w : Ternary) : v ≤ w ↔ v.toInt ≤ w.toInt := Iff.rfl

theorem le_refl (v : Ternary) : v ≤ v := Int.le_refl v.toInt

theorem le_trans {u v w : Ternary} (h : u ≤ v) (h' : v ≤ w) : u ≤ w := Int.le_trans h h'

theorem negative_le (v : Ternary) : negative ≤ v := by
  cases v <;> decide

theorem le_positive (v : Ternary) : v ≤ positive := by
  cases v <;> decide

@[simp] theorem mem_all (v : Ternary) : v ∈ all := by
  cases v <;> decide

@[simp] theorem ofInt_toInt (v : Ternary) : ofInt v.toInt = .ok v := by
  cases v <;> rfl

@[simp] theorem ofBits_bits (v : Ternary) : ofBits v.bits.1 v.bits.2 = .ok v := by
  cases v <;> rfl

@[simp] theorem ofTag?_tag (v : Ternary) : ofTag? v.tag = some v := by
  cases v <;> decide

theorem toInt_injective {v w : Ternary} (h : v.toInt = w.toInt) : v = w := by
  cases v <;> cases w <;> simp_all [toInt]

theorem le_antisymm {v w : Ternary} (h : v ≤ w) (h' : w ≤ v) : v = w :=
  toInt_injective (Int.le_antisymm h h')

end Ternary
end Vigil
