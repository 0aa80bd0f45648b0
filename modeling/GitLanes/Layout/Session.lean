import GitLanes.Layout.Progress
import GitLanes.Script.Source

namespace GitLanes

/-!
# Sessions

A layout can be led step by step: by lines, by directives and by whole sources,
each going on from where the last one ended. The only step that can fail is a
source that announces another kind of diagram, and it leaves the layout as it
was.
-/

/-- One step of a session. -/
inductive Step
  | line (index : Int) (text : String)
  | directive (given : Directive)
  | source (text : String)
  | look
  deriving Repr, DecidableEq

namespace Step

/-- The directives that a step carries out. -/
def directives : Step → Except Fault (List Directive)
  | .line index text => .ok [Directive.ofLine index text.toList]
  | .directive given => .ok [given]
  | .source text => (Script.ofSource text).map Script.directives
  | .look => .ok []

end Step

namespace Layout

/-- The layout after a step, or the reason why the step failed. -/
def perform (settings : Settings) (layout : Layout) (step : Step) : Except Fault Layout :=
  step.directives.map (layout.run settings)

end Layout

/-- A step as it was carried out; a step that failed has left the layout as it was. -/
structure StepOutcome where
  step : Step
  before : Layout
  after : Layout
  fault : Option Fault
  deriving Repr, DecidableEq

namespace StepOutcome

/-- The commits that a step has added. -/
def newCommits (outcome : StepOutcome) : List CommitNode :=
  outcome.after.commits.drop outcome.before.commits.length

/-- The edges that a step has added. -/
def newEdges (outcome : StepOutcome) : List Edge :=
  outcome.after.edges.drop outcome.before.edges.length

end StepOutcome

namespace Layout

/-- Carry out a step, which may fail. -/
def attempt (settings : Settings) (layout : Layout) (step : Step) : StepOutcome :=
  match layout.perform settings step with
  | .ok after => ⟨step, layout, after, none⟩
  | .error fault => ⟨step, layout, layout, some fault⟩

/-- Carry out a list of steps, going on after one that failed. -/
def session (settings : Settings) (layout : Layout) : List Step → List StepOutcome
  | [] => []
  | step :: steps =>
      let outcome := layout.attempt settings step
      outcome :: outcome.after.session settings steps

/-- The layout after a list of steps. -/
def afterSession (settings : Settings) (layout : Layout) (steps : List Step) : Layout :=
  steps.foldl (fun layout step => (layout.attempt settings step).after) layout

end Layout

end GitLanes
