/-!
# Scalars

The statistics of this library are written once, over any number system with
the operations below.  The program runs them over `Float`; statements about
exact arithmetic instantiate the same definitions with exact numbers.
-/

namespace Vigil

/-- Numbers that can be averaged, compared, binned and weighed by their
logarithm.  Comparisons are decidable but need not be total: a value that is no
number compares false with everything. -/
class Scalar (α : Type) extends Add α, Sub α, Mul α, Div α, Neg α, LT α, LE α,
    NatCast α, OfScientific α where
  decidableLT : DecidableLT α
  decidableLE : DecidableLE α
  log : α → α
  /-- The greatest natural number not above the argument, and zero if there is none. -/
  floor : α → Nat
  isFinite : α → Bool

namespace Scalar

variable {α : Type} [Scalar α]

instance (priority := low) : DecidableLT α := decidableLT
instance (priority := low) : DecidableLE α := decidableLE

def zero : α := ((0 : Nat) : α)

def one : α := ((1 : Nat) : α)

/-- The sum of a list, from left to right. -/
def sum (xs : List α) : α := xs.foldl (· + ·) zero

/-- The greater of two numbers; a value that is no number loses. -/
def max (x y : α) : α := if x < y then y else x

/-- The nearest point of the unit interval; a value that is no number stays. -/
def clampUnit (x : α) : α := if x < zero then zero else if one < x then one else x

/-- Whether a number lies in the unit interval, ends included. -/
def inUnit (x : α) : Bool := decide (zero ≤ x) && decide (x ≤ one)

@[simp] theorem inUnit_eq_true_iff (x : α) :
    inUnit x = true ↔ zero ≤ x ∧ x ≤ one := by
  simp [inUnit]

theorem sum_append_singleton (xs : List α) (x : α) : sum (xs ++ [x]) = sum xs + x := by
  simp [sum]

end Scalar

instance natCastFloat : NatCast Float := ⟨Float.ofNat⟩

/-- Doubles.  The conversion to a natural number drops the fraction and is cut off at
zero and at sixty-four bits; what is no number goes to zero. -/
instance : Scalar Float where
  decidableLT := inferInstance
  decidableLE := inferInstance
  log := Float.log
  floor x := x.toUInt64.toNat
  isFinite := Float.isFinite

end Vigil
