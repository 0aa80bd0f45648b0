import GitLanes.Command.Arguments
import GitLanes.Layout.Notice
import GitLanes.Text.Blank

namespace GitLanes

/-!
# What the command prints

Messages go to the terminal as plain text, without the escape sequences that
would color it or move its cursor. Log lines name their level and the component that wrote them.
-/

/-- Whether a character is a parameter of a control sequence. -/
def isSequenceParameter (character : Char) : Bool :=
  CodeRanges.contains [(0x30, 0x3F)] character

/-- Whether a character may stand between the parameters of a control sequence and its end. -/
def isSequenceIntermediate (character : Char) : Bool :=
  CodeRanges.contains [(0x20, 0x2F)] character

/-- Whether a character ends a control sequence. -/
def isSequenceFinal (character : Char) : Bool :=
  CodeRanges.contains [(0x40, 0x7E)] character

/-- What follows the parameters and the intermediate characters of a control sequence. -/
def afterSequenceParameters (text : List Char) : List Char :=
  (text.dropWhile isSequenceParameter).dropWhile isSequenceIntermediate

/-- Parameters and intermediate characters are only ever taken away. -/
theorem length_afterSequenceParameters_le (text : List Char) :
    (afterSequenceParameters text).length ≤ text.length :=
  Nat.le_trans
    (List.dropWhile_sublist isSequenceIntermediate).length_le
    (List.dropWhile_sublist isSequenceParameter).length_le

/--
What follows an escape sequence, if a text starts with one.

A sequence is an escape and a bracket, then parameters, then intermediate
characters, and at last one final character. The three kinds of character have
no member in common, so a sequence can be read in one way only.
-/
def afterEscapeSequence? :
    (text : List Char) →
    Option { rest : List Char // rest.length < text.length }
  | '\x1b' :: '[' :: text =>
      match shape : afterSequenceParameters text with
      | [] => none
      | last :: rest =>
          if isSequenceFinal last then
            some ⟨rest, by
              have shorter := length_afterSequenceParameters_le text
              simp only [shape, List.length_cons] at shorter ⊢
              omega⟩
          else
            none
  | _ => none

/-- A text without its escape sequences. -/
def withoutEscapeSequences (text : List Char) : List Char :=
  match afterEscapeSequence? text with
  | some ⟨rest, _⟩ => withoutEscapeSequences rest
  | none =>
      match text with
      | [] => []
      | character :: rest => character :: withoutEscapeSequences rest
termination_by text.length

/-- A message on a line of its own. -/
def messageLine (message : String) : String :=
  String.ofList (withoutEscapeSequences message.toList) ++ "\n"

/-- The usage of the command. -/
def usageText : String :=
  "Usage: gitgraph-drawio [OPTIONS]\nTry 'gitgraph-drawio --help' for help.\n\n"

/-- The help of the command. -/
def helpText : String :=
  "Usage: gitgraph-drawio [OPTIONS]\n\n" ++
    "  Mermaid gitGraph to draw.io diagram converter.\n\n" ++
    "Options:\n" ++
    "  -i, --input TEXT   Input mermaid file path  [required]\n" ++
    "  -o, --output TEXT  Output drawio file path  [default: output.drawio]\n" ++
    "  -v, --verbose      Log skipped lines and branch decisions\n" ++
    "  --help             Show this message and exit.\n"

/-- What is printed about arguments that are refused. -/
def UsageFault.report (fault : UsageFault) : String :=
  (if fault.showsUsage then usageText else "") ++ messageLine ("Error: " ++ fault.message)

/-- The log line that tells how a source was read. -/
def Script.logLine (script : Script) : String :=
  "DEBUG - gitgraph_drawio.parsers.gitgraph - parsed " ++ integerText script.length ++
    " directives (" ++ integerText script.unrecognizedCount ++ " unrecognized)\n"

/-- The log line of a notice. -/
def Notice.logLine (notice : Notice) : String :=
  "DEBUG - gitgraph_drawio.layout.engine - " ++ notice.message ++ "\n"

/-- The log line of an edge that leads from or to no commit. -/
def Edge.warningLine (edge : Edge) : String :=
  "WARNING - gitgraph_drawio - edge " ++ edge.source ++ " -> " ++ edge.target ++
    " references an unknown node\n"

/-- The log line of a history with a cycle. -/
def cycleWarningLine : String :=
  "WARNING - gitgraph_drawio - history contains a cycle; check for repeated commit ids\n"

/-- The lines that tell of a drawing that was written. -/
def History.successText (history : History) (input output : String) : String :=
  messageLine ("Successfully converted " ++ input ++ " to " ++ output) ++
    messageLine ("   " ++ integerText history.commits.length ++ " commits, " ++
      integerText history.edges.length ++ " edges, " ++
      integerText history.branches.length ++ " branches") ++
    messageLine ("   (Try 'Arrange > Layout > Horizontal Flow' in Draw.io if it looks " ++
      "messy, though coordinates are pre-calculated)")

end GitLanes
