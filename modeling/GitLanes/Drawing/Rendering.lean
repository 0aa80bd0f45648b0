import GitLanes.Number.Numeral
import GitLanes.Number.Quantity

namespace GitLanes

/-!
# Rendering of a drawing

How large the commits are drawn, which time the document bears and whether it
is indented; and how a coordinate is written in it. Every number passes through
a double, so an integer beyond all doubles is refused, but a number without a
fraction is written with all its digits.
-/

/-- What a rendering is free to choose. -/
structure Rendering where
  nodeSize : Quantity := .int 50
  modified : Option String := none
  pretty : Bool := true
  deriving Repr, DecidableEq

/-- The time that a document bears: the chosen one, or else the present. -/
def Rendering.timestamp (rendering : Rendering) (now : String) : String :=
  (rendering.modified.filter fun chosen => chosen != "").getD now

/-- A double as a coordinate, without a point if it has no fraction. -/
def Double.coordinate (value : Double) : List Char :=
  match value.toInt? with
  | some whole => integerNumeral whole
  | none => value.numeral

/-- A quantity as a coordinate. -/
def Quantity.coordinate : Quantity → Except Fault (List Char)
  | .int value => (Quantity.doubleOfInt value).map fun _ => integerNumeral value
  | .double value => .ok value.coordinate

/-- The coordinate of a quantity as a text. -/
def Quantity.coordinateText (quantity : Quantity) : Except Fault String :=
  quantity.coordinate.map String.ofList

end GitLanes
