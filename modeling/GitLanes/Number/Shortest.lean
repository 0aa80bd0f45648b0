import GitLanes.Number.Double

namespace GitLanes

/-!
# Shortest decimals

A finite number is written with the fewest decimal digits that no other number
is nearer to. The candidates with a given number of digits are the two
neighbours of the number on the decimal grid of that many digits; if some point
of a grid lies in the interval that rounds to the number, then so does one of
these two. All comparisons are between integers over one common denominator.
-/

/-- A decimal numeral: an integer times a power of ten. -/
structure Decimal where
  digits : Nat
  exponent : Int
  deriving Repr, DecidableEq

namespace Double

/-- The power of ten over which all decimals in question are integers. -/
def decimalScale : Nat := powerOfTen 400

/-- The number of digits of a count before the decimal point, less than one below one. -/
def decimalPoint (units : Nat) : Int :=
  ((Nat.toDigits 10 (units * decimalScale / unitsPerOne)).length : Int) - 400

/-- The numbers that round to a given one, over the denominator of `scaled`. -/
structure RoundingInterval where
  low : Nat
  high : Nat
  /-- Whether the two ends round to the number as well. -/
  closed : Bool
  deriving Repr, DecidableEq

/-- A count over the common denominator. -/
def scaled (units : Nat) : Nat :=
  4 * units * decimalScale

/-- A power of ten over the common denominator. -/
def gridStep (exponent : Int) : Nat :=
  4 * unitsPerOne * powerOfTen (exponent + 400).toNat

/--
The numbers that round to a given count.

The ends lie half a gap away; below a power of two the gap is half as wide. They
belong to the interval when the significand is even.
-/
def roundingInterval (units : Nat) : RoundingInterval :=
  let gap := spacing units
  let gapBelow := if units = powerOfTwo 52 * gap ∧ 1 < gap then gap else 2 * gap
  { low := (4 * units - gapBelow) * decimalScale
    high := (4 * units + 2 * gap) * decimalScale
    closed := (units / gap) % 2 == 0 }

/-- Whether a point over the common denominator lies in an interval. -/
def RoundingInterval.contains (interval : RoundingInterval) (point : Nat) : Bool :=
  if interval.closed then
    decide (interval.low ≤ point ∧ point ≤ interval.high)
  else
    decide (interval.low < point ∧ point < interval.high)

/--
The decimal on one grid that rounds to a given count.

Of two such decimals the nearer one is taken, and the even one if neither is
nearer.
-/
def decimalOnGrid? (units : Nat) (exponent : Int) : Option Decimal :=
  let step := gridStep exponent
  let below := scaled units / step
  let interval := roundingInterval units
  match interval.contains (below * step), interval.contains ((below + 1) * step) with
  | true, true => some ⟨nearestQuotient (scaled units) step, exponent⟩
  | true, false => some ⟨below, exponent⟩
  | false, true => some ⟨below + 1, exponent⟩
  | false, false => none

/--
The shortest decimal that rounds to a given count.

Seventeen digits tell all numbers apart, so the default is never taken for a
positive count.
-/
def shortestDecimal (units : Nat) : Decimal :=
  let point := decimalPoint units
  ((List.range 17).findSome? fun (further : Nat) =>
    decimalOnGrid? units (point - 1 - (further : Int))).getD ⟨0, 0⟩

end Double

end GitLanes
