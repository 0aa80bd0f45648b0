import GitLanes.Command.Action
import GitLanes.Command.Console
import GitLanes.Conversion
import GitLanes.Topology.Order

namespace GitLanes

/-!
# The command

The command draws one source file. It reads the file as UTF-8 with any line
ends, lays the source out and draws it with the standard settings, and writes
the document. Nothing is written unless everything before it succeeded, and the
first thing that fails is the one that is told.
-/

/-- The source that the contents of a file hold. -/
def sourceOfContents (contents : List UInt8) : String :=
  String.ofList (foldLineEnds (Utf8.decode contents))

/-- The log of a script that was read and laid out. -/
def Script.log (script : Script) (verbose : Bool) : String :=
  if verbose then
    script.logLine ++
      String.join (((Layout.start {}).notices {} script.directives).map Notice.logLine)
  else
    ""

/-- The warnings about a history. -/
def History.warnings (history : History) : String :=
  String.join (history.danglingEdges.map Edge.warningLine) ++
    if history.graph.isAcyclic then "" else cycleWarningLine

/-- A command that fails after what it has logged. -/
def failure (log message : String) : Action :=
  .finish ⟨1, "", log ++ messageLine ("Error: " ++ message)⟩

/-- Write the drawing of a history to a file. -/
def writeDrawing
    (input output now log : String)
    (history : History) :
    Action :=
  match history.render {} ({} : Settings).spacingY now with
  | .error fault => failure log fault.message
  | .ok document =>
      .write output (Utf8.encode document.toList) fun
        | .error fault =>
            failure log ("cannot write '" ++ output ++ "': " ++ fault.message output)
        | .ok () => .finish ⟨0, history.successText input output, log⟩

/-- Draw the source that the contents of a file hold. -/
def drawContents
    (input output now : String)
    (verbose : Bool)
    (contents : List UInt8) :
    Action :=
  match Script.ofSource (sourceOfContents contents) with
  | .error fault => failure "" fault.message
  | .ok script =>
      let history := script.history {}
      writeDrawing input output now (script.log verbose ++ history.warnings) history

/-- Do what was asked for. -/
def Invocation.action (now : String) : Invocation → Action
  | .help => .finish ⟨0, helpText, ""⟩
  | .conversion input output verbose =>
      .read input fun
        | .error fault => failure "" ("cannot read '" ++ input ++ "': " ++ fault.message input)
        | .ok contents => drawContents input output now verbose contents

/-- The command with its arguments, at a given time. -/
def command (arguments : List String) (now : String) : Action :=
  match Invocation.ofArguments arguments with
  | .error fault => .finish ⟨2, "", fault.report⟩
  | .ok invocation => invocation.action now

end GitLanes
