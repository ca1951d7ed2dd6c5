/-!
# Shortest decimals

The doubles that stand for one real number are told apart by intervals: a
decimal reads back as a given double when it lies between the midpoints to the
two neighbours, ends included for an even mantissa.  The shortest decimal of a
double is the one with the fewest digits in that interval; of two with equally
many digits it is the nearer, and when they are equally near a rule decides.

All arithmetic here is exact: a double is a mantissa times a power of two.
-/

namespace Vigil.Decimal

/-- The number `digits * 10 ^ exponent`. -/
structure Scientific where
  digits : Nat
  exponent : Int
deriving DecidableEq, Repr

/-- The positive number `mantissa * 2 ^ exponent`.  At the lower end of its
binade the neighbour below is only half as far away as the one above. -/
structure Binary where
  mantissa : Nat
  exponent : Int
  atBinadeStart : Bool
deriving DecidableEq, Repr

/-- The weight of the leading bit that a double leaves unwritten. -/
def leadingBit : Nat := Nat.pow 2 52

/-- Reads the magnitude of a finite double from its sixty-four bits. -/
def Binary.ofFloat (x : Float) : Binary :=
  let bits : Nat := x.toBits.toNat
  let field : Nat := bits / leadingBit % 2048
  let fraction : Nat := bits % leadingBit
  if field = 0 then ⟨fraction, -1074, false⟩
  else ⟨leadingBit + fraction, Int.ofNat field - 1075, fraction == 0 && decide (1 < field)⟩

/-- A number together with the interval that reads back as it, all as fractions
over one denominator. -/
structure Interval where
  value : Nat
  lower : Nat
  upper : Nat
  denominator : Nat
  closed : Bool

/-- The interval of a binary number, in quarters of its last place. -/
def Binary.interval (b : Binary) : Interval :=
  let quarter := b.exponent - 2
  let scale := Nat.pow 2 quarter.toNat
  { value := 4 * b.mantissa * scale
    lower := (4 * b.mantissa - if b.atBinadeStart then 1 else 2) * scale
    upper := (4 * b.mantissa + 2) * scale
    denominator := Nat.pow 2 (-quarter).toNat
    closed := b.mantissa % 2 = 0 }

def Interval.contains (i : Interval) (d : Scientific) : Bool :=
  let scaled := d.digits * i.denominator * Nat.pow 10 d.exponent.toNat
  let unit := Nat.pow 10 (-d.exponent).toNat
  if i.closed then i.lower * unit ≤ scaled && scaled ≤ i.upper * unit
  else i.lower * unit < scaled && scaled < i.upper * unit

/-- Whether a value that is equally near to two points of a grid leaves the lower
one, whose number is given. -/
abbrev TieRule := Nat → Bool

/-- Of two points equally near the greater one is taken. -/
def tiesUp : TieRule := fun _ => true

/-- Of two points equally near the one with an even number is taken. -/
def tiesToEven : TieRule := fun point => point % 2 == 1

/-- The point of the grid of step `10 ^ exponent` at or below the value, and how
half the way to the next point compares with what is left of the value. -/
def Interval.below (i : Interval) (exponent : Int) : Nat × Ordering :=
  let numerator := i.value * Nat.pow 10 (-exponent).toNat
  let step := i.denominator * Nat.pow 10 exponent.toNat
  (numerator / step, compare step (2 * (numerator % step)))

/-- The neighbour of the value on a grid that reads back as it, if one does. -/
def Interval.onGrid? (i : Interval) (ties : TieRule) (exponent : Int) : Option Scientific :=
  let (point, half) := i.below exponent
  let down : Scientific := ⟨point, exponent⟩
  let up : Scientific := ⟨point + 1, exponent⟩
  match i.contains down, i.contains up with
  | true, true =>
    match half with
    | .lt => some up
    | .eq => some (if ties point then up else down)
    | .gt => some down
  | true, false => some down
  | false, true => some up
  | false, false => none

/-- Tries ever finer grids, `count` of them. -/
def Interval.search (i : Interval) (ties : TieRule) : Nat → Int → Option Scientific
  | 0, _ => none
  | count + 1, exponent =>
    match i.onGrid? ties exponent with
    | some d => some d
    | none => i.search ties count (exponent - 1)

/-- The exponent of a power of ten above the number, and less than a thousand
times as great. -/
def Binary.tenPower (b : Binary) : Int :=
  (Int.ofNat b.mantissa.log2 + 1 + b.exponent) * 30103 / 100000 + 2

/-- Moves the trailing zeros of the digits into the exponent. -/
def Scientific.stripZeros (fuel : Nat) (d : Scientific) : Scientific :=
  match fuel with
  | 0 => d
  | fuel + 1 =>
    if d.digits % 10 = 0 ∧ d.digits ≠ 0 then stripZeros fuel ⟨d.digits / 10, d.exponent + 1⟩
    else d

/-- The shortest decimal that reads back as the magnitude of a finite double. -/
def shortest (ties : TieRule) (x : Float) : Scientific :=
  let b := Binary.ofFloat x
  if b.mantissa = 0 then ⟨0, 0⟩
  else
    let found := b.interval.search ties 24 b.tenPower
    (found.getD ⟨b.mantissa, b.exponent⟩).stripZeros 20

end Vigil.Decimal
