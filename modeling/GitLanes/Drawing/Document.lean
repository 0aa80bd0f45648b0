import GitLanes.Drawing.Rendering
import GitLanes.Drawing.Style
import GitLanes.Markup.Element

namespace GitLanes

/-!
# Documents

A drawing is a document of cells. After the two cells that every drawing starts
with come the labels of the branches, the edges and the commits, so that the
commits lie on top. Names, identifiers and labels stand in the cells as they
are; only the label of a branch is placed by the rendering, half a commit below
the top of its lane.
-/

/-- A cell and the elements inside it. -/
def Element.cell (attributes : List (String × String)) (children : List Element) : Element :=
  .mk "mxCell" attributes children

/-- The place and the size of a cell. -/
def Element.geometry (x y width height : String) : Element :=
  .mk "mxGeometry"
    [("x", x), ("y", y), ("width", width), ("height", height), ("as", "geometry")] []

/-- The height of the label of a branch. -/
def labelHeight : Int := 20

/-- The distance of a label from the top: the middle of its lane, less half a label. -/
def Branch.labelY
    (branch : Branch)
    (rendering : Rendering)
    (spacingY : Quantity) :
    Except Fault Double := do
  let lane ← spacingY.scale branch.laneIndex
  let halfNode ← rendering.nodeSize.half
  let top ← lane.toDouble
  return (top.add halfNode).add (Double.halfOfInt (-labelHeight))

/-- The cell that shows the name of a branch left of its lane. -/
def Branch.cell
    (rendering : Rendering)
    (spacingY : Quantity)
    (branch : Branch) :
    Except Fault Element := do
  let y ← branch.labelY rendering spacingY
  return .cell
    [("id", "label-" ++ branch.name), ("value", branch.name), ("style", branch.style),
      ("parent", "1"), ("vertex", "1")]
    [.geometry "-120" (String.ofList y.coordinate) "100" "20"]

/-- The cell of the edge at a position. -/
def Edge.cell (position : Nat) (edge : Edge) : Element :=
  .cell
    [("id", "edge-" ++ integerText position), ("style", edge.style),
      ("parent", "1"), ("source", edge.source), ("target", edge.target), ("edge", "1")]
    [.mk "mxGeometry" [("relative", "1"), ("as", "geometry")] []]

/-- The cell of a commit. -/
def CommitNode.cell (rendering : Rendering) (commit : CommitNode) : Except Fault Element := do
  let size ← rendering.nodeSize.coordinateText
  let x ← commit.x.coordinateText
  let y ← commit.y.coordinateText
  return .cell
    [("id", commit.id), ("value", commit.label), ("style", commit.style),
      ("parent", "1"), ("vertex", "1")]
    [.geometry x y size size]

/-- The settings of the sheet that a drawing lies on. -/
def sheetAttributes : List (String × String) := [
  ("dx", "1000"), ("dy", "1000"), ("grid", "1"), ("gridSize", "10"), ("guides", "1"),
  ("tooltips", "1"), ("connect", "1"), ("arrows", "1"), ("fold", "1"), ("page", "1"),
  ("pageScale", "1"), ("pageWidth", "850"), ("pageHeight", "1100"), ("math", "0"),
  ("shadow", "0")]

/-- The file element of a document that bears a time. -/
def fileElement (timestamp : String) (cells : List Element) : Element :=
  .mk "mxfile"
    [("host", "Electron"), ("modified", timestamp), ("agent", "MermaidToDrawio"),
      ("version", "21.0.0"), ("type", "device")]
    [.mk "diagram" [("id", "gitgraph-diagram"), ("name", "GitGraph")]
      [.mk "mxGraphModel" sheetAttributes [.mk "root" [] cells]]]

namespace History

/-- The cells of a history, in the order in which they are drawn. -/
def cells
    (rendering : Rendering)
    (spacingY : Quantity)
    (history : History) :
    Except Fault (List Element) := do
  let labels ← history.branches.mapM (Branch.cell rendering spacingY)
  let edges := history.edges.mapIdx Edge.cell
  let commits ← history.commits.mapM (CommitNode.cell rendering)
  return .cell [("id", "0")] [] :: .cell [("id", "1"), ("parent", "0")] [] ::
    (labels ++ edges ++ commits)

/-- The document of a history as an element. -/
def document
    (rendering : Rendering)
    (spacingY : Quantity)
    (now : String)
    (history : History) :
    Except Fault Element :=
  (history.cells rendering spacingY).map (fileElement (rendering.timestamp now))

/-- The document of a history as a text. -/
def render
    (rendering : Rendering)
    (spacingY : Quantity)
    (now : String)
    (history : History) :
    Except Fault String :=
  (history.document rendering spacingY now).map fun document =>
    "<?xml version=\"1.0\" encoding=\"UTF-8\"?>\n" ++
      String.ofList (if rendering.pretty then document.pretty else document.compact) ++ "\n"

end History

end GitLanes
