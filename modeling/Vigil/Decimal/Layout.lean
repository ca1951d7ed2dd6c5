import Vigil.Decimal.Shortest
/-!
# Layouts of decimals

A layout says how the digits of a shortest decimal are set: where the decimal
point may stand before an exponent takes over, whether a whole number keeps a
fraction, and how the values that are no numbers are spelled.  The position of
the point counts the digits before it, so one thousandth has position minus two.
-/

namespace Vigil.Decimal

structure Layout where
  /-- The positions of the point at which no exponent is written. -/
  positional : Int → Bool
  /-- Whether a whole number ends with a point and a zero. -/
  wholeFraction : Bool
  notANumber : String
  infinity : String

/-- The figures of messages: never an exponent, and nothing after a whole number. -/
def plain : Layout where
  positional _ := true
  wholeFraction := false
  notANumber := "NaN"
  infinity := "inf"

/-- The figures of a configuration file: never an exponent, always a fraction. -/
def fractional : Layout where
  positional _ := true
  wholeFraction := true
  notANumber := "nan"
  infinity := "inf"

/-- The figures of data: an exponent below one hundred-thousandth and from ten
to the sixteenth on, and always a fraction or an exponent. -/
def compact : Layout where
  positional point := -5 < point && point ≤ 16
  wholeFraction := true
  notANumber := "NaN"
  infinity := "inf"

def figures (n : Nat) : List Char := Nat.toDigits 10 n

/-- Sets digits with the point after the first `point` of them. -/
def Layout.setPoint (l : Layout) (digits : List Char) (point : Int) : List Char :=
  if point ≤ 0 then ['0', '.'] ++ List.replicate (-point).toNat '0' ++ digits
  else if digits.length ≤ point.toNat then
    digits ++ List.replicate (point.toNat - digits.length) '0' ++
      if l.wholeFraction then ['.', '0'] else []
  else digits.take point.toNat ++ '.' :: digits.drop point.toNat

/-- Sets digits with the point after the first, followed by an exponent. -/
def setExponent (digits : List Char) (point : Int) : List Char :=
  let fraction := digits.drop 1
  digits.take 1 ++ (if fraction.isEmpty then [] else '.' :: fraction) ++
    'e' :: (toString (point - 1)).toList

def Layout.set (l : Layout) (d : Scientific) : List Char :=
  let digits := figures d.digits
  let point := if d.digits = 0 then 1 else d.exponent + Int.ofNat digits.length
  if l.positional point then l.setPoint digits point else setExponent digits point

def isNegative (x : Float) : Bool := 0x8000000000000000 ≤ x.toBits.toNat

def Layout.write (l : Layout) (x : Float) : String :=
  if x.isNaN then l.notANumber
  else
    let sign := if isNegative x then ['-'] else []
    let magnitude := if x.isInf then l.infinity.toList else l.set (shortest tiesUp x)
    String.ofList (sign ++ magnitude)

end Vigil.Decimal
