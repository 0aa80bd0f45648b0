import GitLanes.Number.Power

namespace GitLanes

/-!
# Binary64 numbers

Every finite binary64 number is a whole multiple of the smallest positive one,
so it is kept as a sign and a count of units of 2^-1074. Sums are then exact
integers, and every operation is an exact result followed by one rounding to
the nearest count with at most 53 significant binary digits, a half going to
the even neighbour. A count of 2^1024 and more is infinite.
-/

/-- A binary64 number; a finite one is a sign and a count of units of 2^-1074. -/
inductive Double
  | nan
  | infinity (negative : Bool)
  | finite (negative : Bool) (units : Nat)
  deriving Repr, DecidableEq

namespace Double

/-- The count of units that make up the number one. -/
def unitsPerOne : Nat := powerOfTwo 1074

/-- The least count of units that is beyond every finite number. -/
def overflowUnits : Nat := powerOfTwo 2098

/-- The gap between representable counts at the size of a given count. -/
def spacing (units : Nat) : Nat :=
  powerOfTwo (units.log2 + 1 - 53)

/-- The nearest integer to a quotient, a half going to the even neighbour. -/
def nearestQuotient (numerator denominator : Nat) : Nat :=
  let quotient := numerator / denominator
  let twiceRest := 2 * (numerator % denominator)
  if twiceRest < denominator then
    quotient
  else if denominator < twiceRest then
    quotient + 1
  else
    quotient + quotient % 2

/-- The representable count nearest to a quotient. -/
def nearestUnits (numerator denominator : Nat) : Nat :=
  let gap := spacing (numerator / denominator)
  nearestQuotient numerator (denominator * gap) * gap

/-- The number nearest to a quotient of units. -/
def ofUnits (negative : Bool) (numerator denominator : Nat) : Double :=
  let units := nearestUnits numerator denominator
  if units < overflowUnits then .finite negative units else .infinity negative

/-- The number nearest to an integer. -/
def ofInt (value : Int) : Double :=
  ofUnits (decide (value < 0)) (value.natAbs * unitsPerOne) 1

/-- The number nearest to half of an integer. -/
def halfOfInt (value : Int) : Double :=
  ofUnits (decide (value < 0)) (value.natAbs * unitsPerOne) 2

/-- Whether a number is neither infinite nor undefined. -/
def isFinite : Double → Bool
  | .finite _ _ => true
  | _ => false

/-- A sign and a count as one signed count. -/
def signed (negative : Bool) (units : Nat) : Int :=
  if negative then -(units : Int) else units

/--
The sum of two numbers.

A sum of zero is positive unless both operands are negative, and opposite
infinities have no sum.
-/
def add : Double → Double → Double
  | .nan, _ => .nan
  | _, .nan => .nan
  | .infinity left, .infinity right =>
      if left = right then .infinity left else .nan
  | .infinity negative, .finite _ _ => .infinity negative
  | .finite _ _, .infinity negative => .infinity negative
  | .finite left leftUnits, .finite right rightUnits =>
      let sum := signed left leftUnits + signed right rightUnits
      if sum = 0 then
        .finite (left && right) 0
      else
        ofUnits (decide (sum < 0)) sum.natAbs 1

/-- The product of two numbers; zero times infinity is undefined. -/
def mul : Double → Double → Double
  | .nan, _ => .nan
  | _, .nan => .nan
  | .infinity left, .infinity right => .infinity (left != right)
  | .infinity left, .finite right units =>
      if units = 0 then .nan else .infinity (left != right)
  | .finite left units, .infinity right =>
      if units = 0 then .nan else .infinity (left != right)
  | .finite left leftUnits, .finite right rightUnits =>
      ofUnits (left != right) (leftUnits * rightUnits) unitsPerOne

/-- Half of a number. -/
def half : Double → Double
  | .nan => .nan
  | .infinity negative => .infinity negative
  | .finite negative units => ofUnits negative units 2

/-- The integer that a number equals, if it equals one. -/
def toInt? : Double → Option Int
  | .finite negative units =>
      if units % unitsPerOne = 0 then
        some (signed negative (units / unitsPerOne))
      else
        none
  | _ => none

end Double

end GitLanes
