import Vigil.Ternary.Basic
/-!
# Attention items

An item is one escalated judgment: who raised it, what was judged, and its
number in the order of arrival.
-/

namespace Vigil.Attention

structure Item where
  monitor : String
  value : Ternary
  sequence : Nat
deriving DecidableEq, Repr

/-- How urgent an item is: the worse the judgment, the greater. -/
def Item.severity (i : Item) : Int := -i.value.toInt

/-- Why a number is no capacity. -/
structure CapacityError where
  given : Int
deriving DecidableEq, Repr

def CapacityError.message (e : CapacityError) : String :=
  s!"invalid attention capacity: {e.given} (must be at least 1)"

/-- A capacity is a positive number. -/
def validateCapacity (raw : Int) : Except CapacityError Nat :=
  if 0 < raw then .ok raw.toNat else .error ⟨raw⟩

theorem validateCapacity_eq_ok_iff (raw : Int) (c : Nat) :
    validateCapacity raw = .ok c ↔ 0 < c ∧ raw = c := by
  unfold validateCapacity
  split
  · simp only [Except.ok.injEq]
    omega
  · simp only [reduceCtorEq, false_iff]
    omega

end Vigil.Attention
