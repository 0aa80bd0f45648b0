import GitLanes.History

namespace GitLanes

/-!
# Styles

The looks of commits, edges and branch labels as lists of settings. A later
setting of a list overrides an earlier one, which is how a merge is filled.
-/

/-- A white disc with a centred label. -/
def commitBaseStyle : String :=
  "ellipse;whiteSpace=wrap;html=1;aspect=fixed;strokeWidth=2;fillColor=#FFFFFF;" ++
    "fontStyle=1;fontSize=10;"

/-- A floating name without a frame. -/
def labelBaseStyle : String :=
  "text;html=1;strokeColor=none;fillColor=none;align=center;verticalAlign=middle;" ++
    "whiteSpace=wrap;rounded=0;fontStyle=1;fontSize=14;"

/-- A curved line that leaves on the right and arrives on the left. -/
def edgeBaseStyle : String :=
  "edgeStyle=orthogonalEdgeStyle;curved=1;rounded=0;orthogonalLoop=1;jettySize=auto;" ++
    "html=1;strokeWidth=2;exitX=1;exitY=0.5;exitDx=0;exitDy=0;entryX=0;entryY=0.5;" ++
    "entryDx=0;entryDy=0;"

/-- The color of an edge that has none of its own. -/
def defaultEdgeColor : String := "#000000"

/-- The style of a commit; a merge is filled with its color. -/
def CommitNode.style (commit : CommitNode) : String :=
  commitBaseStyle ++ "strokeColor=" ++ commit.color ++ ";" ++
    if commit.isMerge then
      "fillColor=" ++ commit.color ++ ";fontColor=#FFFFFF;"
    else
      ""

/-- The style of an edge. -/
def Edge.style (edge : Edge) : String :=
  edgeBaseStyle ++ "strokeColor=" ++
    (if edge.color = "" then defaultEdgeColor else edge.color) ++ ";"

/-- The style of the label of a branch. -/
def Branch.style (branch : Branch) : String :=
  labelBaseStyle ++ ";fontColor=" ++ branch.color ++ ";"

end GitLanes
