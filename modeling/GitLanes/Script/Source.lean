import GitLanes.Fault
import GitLanes.Script.Line

namespace GitLanes

/-!
# Reading a source as a script

The lines that count are the trimmed ones that are neither blank, nor comments,
nor headers of a git graph; each becomes one directive, numbered from zero. A
source that announces another kind of diagram is refused.
-/

/-- Whether a trimmed line opens a git graph. -/
def isHeader (line : List Char) : Bool :=
  "gitGraph".toList.isPrefixOf line

/-- The lines of a source that become directives. -/
def significantLines (source : List Char) : List (List Char) :=
  ((linesOf source).map trim).filter fun line =>
    !line.isEmpty && !isComment line && !isHeader line

namespace Script

/-- The script that the significant lines of any source say. -/
def ofLines (source : List Char) : Script where
  directives :=
    (significantLines source).mapIdx fun index line => Directive.ofLine index line

/-- The script of a source, unless it announces another kind of diagram. -/
def ofSource (source : String) : Except Fault Script :=
  match diagramKind source.toList with
  | .gitGraph => .ok (ofLines source.toList)
  | kind => .error (.unsupportedDiagram kind)

end Script

end GitLanes
