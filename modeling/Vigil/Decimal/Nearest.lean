/-!
# Doubles nearest to decimals

A decimal stands for the double nearest to it, and for infinity beyond the range
of doubles.  Numbers far outside that range are recognised by the count of their
digits, before any power of ten is computed.
-/

namespace Vigil.Decimal

def infinity : Float := 1.0 / 0.0

def notANumber : Float := 0.0 / 0.0

def nearest (digits : Nat) (exponent : Int) : Float :=
  let point := Int.ofNat (Nat.toDigits 10 digits).length + exponent
  if digits = 0 || point < -400 then 0.0
  else if 400 < point then infinity
  else Float.ofScientific digits (decide (exponent < 0)) exponent.natAbs

@[simp] theorem nearest_zero (exponent : Int) : nearest 0 exponent = 0.0 := by
  simp [nearest]

end Vigil.Decimal
