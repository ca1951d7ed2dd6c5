/-!
# Integers in text

An integer is written as an optional sign and one or more ASCII digits.  Any
number of leading zeros is allowed; the value is unbounded here, and the range
of a particular field is checked where the field is read.
-/

namespace Vigil.Decimal

def digitValue? (c : Char) : Option Nat :=
  if '0' ≤ c ∧ c ≤ '9' then some (c.toNat - '0'.toNat) else none

/-- The number written by a run of ASCII digits after `acc`. -/
def readDigits (acc : Nat) : List Char → Option Nat
  | [] => some acc
  | c :: cs =>
    match digitValue? c with
    | some d => readDigits (10 * acc + d) cs
    | none => none

/-- One or more digits and nothing else. -/
def readNatural : List Char → Option Nat
  | [] => none
  | c :: cs => readDigits 0 (c :: cs)

/-- An optional sign, then one or more digits, and nothing else. -/
def readInteger : List Char → Option Int
  | '+' :: cs => (readNatural cs).map Int.ofNat
  | '-' :: cs => (readNatural cs).map fun n => -Int.ofNat n
  | cs => (readNatural cs).map Int.ofNat

/-- The least and the greatest integer of sixty-four signed bits. -/
def minInt64 : Int := -0x8000000000000000

@[inherit_doc minInt64]
def maxInt64 : Int := 0x7FFFFFFFFFFFFFFF

def maxNat64 : Nat := 0xFFFFFFFFFFFFFFFF

def fitsInt64 (n : Int) : Bool :=
  decide (minInt64 ≤ n) && decide (n ≤ maxInt64)

@[simp] theorem fitsInt64_eq_true_iff (n : Int) :
    fitsInt64 n = true ↔ minInt64 ≤ n ∧ n ≤ maxInt64 := by
  simp [fitsInt64]

@[simp] theorem readDigits_nil (acc : Nat) : readDigits acc [] = some acc := rfl

theorem readDigits_cons (acc : Nat) (c : Char) (cs : List Char) :
    readDigits acc (c :: cs) =
      (digitValue? c).bind fun d => readDigits (10 * acc + d) cs := by
  cases h : digitValue? c <;> simp [readDigits, h]

end Vigil.Decimal
