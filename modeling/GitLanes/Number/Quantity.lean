import GitLanes.Fault
import GitLanes.Number.Double

namespace GitLanes

/-!
# Quantities

Distances and sizes are integers of any size or doubles, and stay what they
are: integers multiply exactly, and an integer becomes a double only where it
meets one. An integer that rounds to no finite double is refused there.
-/

/-- A distance, a size or a coordinate. -/
inductive Quantity
  | int (value : Int)
  | double (value : Double)
  deriving Repr, DecidableEq

namespace Quantity

/-- The double nearest to an integer, unless it is infinite. -/
def doubleOfInt (value : Int) : Except Fault Double :=
  let nearest := Double.ofInt value
  if nearest.isFinite then .ok nearest else .error .integerTooLarge

/-- A quantity as a double. -/
def toDouble : Quantity → Except Fault Double
  | .int value => doubleOfInt value
  | .double value => .ok value

/-- Half of a quantity as a double. -/
def half : Quantity → Except Fault Double
  | .int value =>
      let nearest := Double.halfOfInt value
      if nearest.isFinite then .ok nearest else .error .quotientTooLarge
  | .double value => .ok value.half

/-- A quantity taken any number of times. -/
def scale (factor : Int) : Quantity → Except Fault Quantity
  | .int value => .ok (.int (factor * value))
  | .double value => do
      let factor ← doubleOfInt factor
      return .double (factor.mul value)

/--
A quantity taken as often as a layout counts.

Layouts count directives, so the count is nowhere near the largest double; one
beyond it would count as infinite.
-/
def times (count : Int) : Quantity → Quantity
  | .int value => .int (count * value)
  | .double value => .double ((Double.ofInt count).mul value)

end Quantity

end GitLanes
