import GitLanes.Drawing.Document
import GitLanes.Layout.Progress
import GitLanes.Script.Source

namespace GitLanes

/-!
# From source to drawing

A source is read as a script, laid out as a history and drawn as a document. The
layout and the drawing agree on the distance between lanes, so that the label
of a branch stands beside its commits.
-/

/-- The history that a source lays out. -/
def layoutSource (settings : Settings) (source : String) : Except Fault History :=
  (Script.ofSource source).map (Script.history settings)

/-- The document that a source is drawn as. -/
def convert
    (settings : Settings)
    (rendering : Rendering)
    (now source : String) :
    Except Fault String := do
  let history ← layoutSource settings source
  history.render rendering settings.spacingY now

end GitLanes
