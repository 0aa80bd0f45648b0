import GitLanes.Script.Diagram

namespace GitLanes

/-!
# Faults

Everything that can keep a source from becoming a drawing. A source is refused
for the kind of diagram it announces, a layout for having no color to give, and
a drawing for a number that no double can hold.
-/

/-- The reason why a source, a layout or a drawing is refused. -/
inductive Fault
  /-- The source announces a diagram that is not a git graph. -/
  | unsupportedDiagram (kind : DiagramKind)
  /-- A layout was given no colors to choose from. -/
  | emptyPalette
  /-- An integer rounds to no finite double. -/
  | integerTooLarge
  /-- Half of an integer rounds to no finite double. -/
  | quotientTooLarge
  deriving Repr, DecidableEq

/-- The wording of a fault. -/
def Fault.message : Fault → String
  | .unsupportedDiagram kind => "Unsupported diagram type: " ++ kind.keyword
  | .emptyPalette => "integer modulo by zero"
  | .integerTooLarge => "int too large to convert to float"
  | .quotientTooLarge => "integer division result too large for a float"

end GitLanes
