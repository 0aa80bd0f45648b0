import GitLanes.Text.Blank
import GitLanes.Text.Lines

namespace GitLanes

/-!
# Kinds of diagram

A source announces its kind of diagram with the keyword that opens its first
line that is neither blank nor a comment. A source that opens with anything
else is taken for a git graph, so a list of directives needs no header.
-/

/-- The kinds of diagram that have a keyword. -/
inductive DiagramKind
  | gitGraph
  | flowchart
  | graph
  | sequenceDiagram
  | classDiagram
  | stateDiagramV2
  | stateDiagram
  | erDiagram
  | journey
  | gantt
  | pie
  | mindmap
  | timeline
  deriving Repr, DecidableEq

namespace DiagramKind

/-- Every kind of diagram. -/
def all : List DiagramKind := [
  .gitGraph, .flowchart, .graph, .sequenceDiagram, .classDiagram,
  .stateDiagramV2, .stateDiagram, .erDiagram, .journey, .gantt, .pie, .mindmap,
  .timeline]

/-- The keyword that announces a kind of diagram. -/
def keyword : DiagramKind → String
  | .gitGraph => "gitGraph"
  | .flowchart => "flowchart"
  | .graph => "graph"
  | .sequenceDiagram => "sequenceDiagram"
  | .classDiagram => "classDiagram"
  | .stateDiagramV2 => "stateDiagram-v2"
  | .stateDiagram => "stateDiagram"
  | .erDiagram => "erDiagram"
  | .journey => "journey"
  | .gantt => "gantt"
  | .pie => "pie"
  | .mindmap => "mindmap"
  | .timeline => "timeline"

/-- The kind that a word announces. -/
def ofKeyword? (word : List Char) : Option DiagramKind :=
  all.find? fun kind => kind.keyword.toList == word

/-- No kind is missing from the list of all kinds. -/
theorem mem_all (kind : DiagramKind) : kind ∈ all := by
  cases kind <;> decide

end DiagramKind

/-- Whether a trimmed line is a comment. -/
def isComment (line : List Char) : Bool :=
  ['%', '%'].isPrefixOf line

/-- Whether a character may stand in a keyword after its first letter. -/
def isKeywordCharacter (character : Char) : Bool :=
  character.isAlphanum || character == '-'

/-- The longest keyword-like word that opens a line. -/
def openingWord : List Char → List Char
  | [] => []
  | first :: rest =>
      if first.isAlpha then first :: rest.takeWhile isKeywordCharacter else []

/-- The kind of diagram that lines announce: the first that is neither blank nor a comment decides. -/
def announcedKind : List (List Char) → DiagramKind
  | [] => .gitGraph
  | line :: rest =>
      if (trim line).isEmpty || isComment (trim line) then
        announcedKind rest
      else
        (DiagramKind.ofKeyword? (openingWord (trim line))).getD .gitGraph

/-- The kind of diagram that a source announces. -/
def diagramKind (source : List Char) : DiagramKind :=
  announcedKind (linesOf source)

end GitLanes
