import GitLanes.Drawing.Document
import GitLanes.Proofs.Attempts
import GitLanes.Proofs.Markup.RoundTrip

namespace GitLanes

/-!
# The cells of a document

A document that was drawn is read back as the cells that were drawn into it,
whatever texts they bear: first the two cells that every drawing starts with,
then the labels of the branches, the edges and the commits of the history.
-/

namespace Element

/-- The tag of an element. -/
def tag : Element → String
  | .mk tag _ _ => tag

/-- The attributes of an element. -/
def attributes : Element → List (String × String)
  | .mk _ attributes _ => attributes

/-- The elements inside an element. -/
def children : Element → List Element
  | .mk _ _ children => children

/-- The value of an attribute. -/
def attribute? (element : Element) (name : String) : Option String :=
  element.attributes.lookup name

/-- The elements inside the last of some elements that lie inside each other. -/
def inside? : (path : List String) → Element → Option (List Element)
  | [], _ => none
  | [last], element => if element.tag = last then some element.children else none
  | outer :: path, .mk tag _ [child] => if tag = outer then child.inside? path else none
  | _, _ => none

end Element

/-- The cells of a document, and nothing else that is inside its root. -/
def cellsOf? (text : String) : Option (List Element) := do
  let document ← Markup.read? text
  let cells ← document.inside? ["mxfile", "diagram", "mxGraphModel", "root"]
  if cells.all fun cell => cell.tag == "mxCell" then some cells else none

/-- The texts by which a cell is known and shown. -/
structure CellText where
  id : Option String
  value : Option String := none
  style : Option String := none
  source : Option String := none
  target : Option String := none
  vertex : Option String := none
  edge : Option String := none
  deriving Repr, DecidableEq

/-- The texts of a cell. -/
def Element.cellText (cell : Element) : CellText where
  id := cell.attribute? "id"
  value := cell.attribute? "value"
  style := cell.attribute? "style"
  source := cell.attribute? "source"
  target := cell.attribute? "target"
  vertex := cell.attribute? "vertex"
  edge := cell.attribute? "edge"

/-- The texts of the label of a branch. -/
def Branch.cellText (branch : Branch) : CellText where
  id := some ("label-" ++ branch.name)
  value := some branch.name
  style := some branch.style
  vertex := some "1"

/-- The texts of the edge at a position. -/
def Edge.cellText (position : Nat) (edge : Edge) : CellText where
  id := some ("edge-" ++ integerText position)
  style := some edge.style
  source := some edge.source
  target := some edge.target
  edge := some "1"

/-- The texts of a commit. -/
def CommitNode.cellText (commit : CommitNode) : CellText where
  id := some commit.id
  value := some commit.label
  style := some commit.style
  vertex := some "1"

/-- The texts of all cells of a history, in the order in which they are drawn. -/
def History.cellTexts (history : History) : List CellText :=
  { id := some "0" } :: { id := some "1" } ::
    (history.branches.map Branch.cellText ++ history.edges.mapIdx Edge.cellText ++
      history.commits.map CommitNode.cellText)

/-- The coordinate of an integer, if it has one, is its text. -/
theorem Quantity.coordinateText_int
    {value : Int}
    {text : String}
    (written : (Quantity.int value).coordinateText = .ok text) :
    text = integerText value := by
  simp only [coordinateText, coordinate, map_eq_ok_iff] at written
  obtain ⟨_, ⟨_, -, rfl⟩, rfl⟩ := written
  rfl

/-- The label of a branch is drawn exactly if its height can be computed. -/
theorem Branch.cell_eq_ok_iff
    {rendering : Rendering}
    {spacingY : Quantity}
    {branch : Branch}
    {cell : Element} :
    branch.cell rendering spacingY = .ok cell ↔
      ∃ y : Double,
        branch.labelY rendering spacingY = .ok y ∧
          cell = .cell
            [("id", "label-" ++ branch.name), ("value", branch.name), ("style", branch.style),
              ("parent", "1"), ("vertex", "1")]
            [.geometry "-120" (String.ofList y.coordinate) "100" "20"] := by
  simp only [Branch.cell, bind_eq_ok_iff, pure_eq_ok_iff]

/-- A commit is drawn exactly if its size and both of its coordinates can be written. -/
theorem CommitNode.cell_eq_ok_iff
    {rendering : Rendering}
    {commit : CommitNode}
    {cell : Element} :
    commit.cell rendering = .ok cell ↔
      ∃ size,
        rendering.nodeSize.coordinateText = .ok size ∧
          ∃ x,
            commit.x.coordinateText = .ok x ∧
              ∃ y,
                commit.y.coordinateText = .ok y ∧
                  cell = .cell
                    [("id", commit.id), ("value", commit.label), ("style", commit.style),
                      ("parent", "1"), ("vertex", "1")]
                    [.geometry x y size size] := by
  simp only [CommitNode.cell, bind_eq_ok_iff, pure_eq_ok_iff]

namespace History

/-- The cells of a history are the base, one label a branch, one cell an edge and one a commit. -/
theorem cells_eq_ok_iff
    {rendering : Rendering}
    {spacingY : Quantity}
    {history : History}
    {cells : List Element} :
    history.cells rendering spacingY = .ok cells ↔
      ∃ labels,
        List.Forall₂ (fun (branch : Branch) label => branch.cell rendering spacingY = .ok label)
            history.branches labels ∧
          ∃ vertices,
            List.Forall₂ (fun (commit : CommitNode) vertex => commit.cell rendering = .ok vertex)
                history.commits vertices ∧
              cells = .cell [("id", "0")] [] :: .cell [("id", "1"), ("parent", "0")] [] ::
                (labels ++ history.edges.mapIdx Edge.cell ++ vertices) := by
  simp only [History.cells, bind_eq_ok_iff, mapM_eq_ok_iff, pure_eq_ok_iff]

/-- What is told of every cell is told of the branches, the edges and the commits in order. -/
theorem map_cells
    {β : Type}
    (tell : Element → β)
    (ofBranch : Branch → β)
    (ofEdge : Nat → Edge → β)
    (ofCommit : CommitNode → β)
    {rendering : Rendering}
    {spacingY : Quantity}
    {history : History}
    {cells : List Element}
    (drawn : history.cells rendering spacingY = .ok cells)
    (labels :
      ∀ branch ∈ history.branches,
        ∀ cell, branch.cell rendering spacingY = .ok cell → tell cell = ofBranch branch)
    (lines :
      ∀ edge ∈ history.edges, ∀ position, tell (edge.cell position) = ofEdge position edge)
    (vertices :
      ∀ commit ∈ history.commits,
        ∀ cell, commit.cell rendering = .ok cell → tell cell = ofCommit commit) :
    cells.map tell =
      tell (.cell [("id", "0")] []) :: tell (.cell [("id", "1"), ("parent", "0")] []) ::
        (history.branches.map ofBranch ++ history.edges.mapIdx ofEdge ++
          history.commits.map ofCommit) := by
  obtain ⟨labelCells, labelled, vertexCells, committed, rfl⟩ := cells_eq_ok_iff.mp drawn
  have toldLines : (history.edges.mapIdx Edge.cell).map tell = history.edges.mapIdx ofEdge := by
    rw [map_mapIdx]
    refine List.ext_getElem (by simp) fun position _ inRange => ?_
    rw [List.getElem_mapIdx, List.getElem_mapIdx, lines _ (List.getElem_mem _)]
  rw [List.map_cons, List.map_cons, List.map_append, List.map_append, toldLines,
    map_eq_map_of_forall₂ labelled labels, map_eq_map_of_forall₂ committed vertices]

/-- What holds of every base cell, label, line and vertex holds of every cell. -/
theorem forall_mem_cells
    {holds : Element → Prop}
    {rendering : Rendering}
    {spacingY : Quantity}
    {history : History}
    {cells : List Element}
    (drawn : history.cells rendering spacingY = .ok cells)
    (base : holds (.cell [("id", "0")] []) ∧ holds (.cell [("id", "1"), ("parent", "0")] []))
    (labels :
      ∀ branch ∈ history.branches,
        ∀ cell, branch.cell rendering spacingY = .ok cell → holds cell)
    (lines : ∀ edge ∈ history.edges, ∀ position, holds (edge.cell position))
    (vertices :
      ∀ commit ∈ history.commits, ∀ cell, commit.cell rendering = .ok cell → holds cell) :
    ∀ cell ∈ cells, holds cell := by
  have told : ∀ fact ∈ cells.map holds, fact := by
    rw [map_cells holds (fun _ => True) (fun _ _ => True) (fun _ => True) drawn
      (fun branch member cell drawnCell => eq_true (labels branch member cell drawnCell))
      (fun edge member position => eq_true (lines edge member position))
      (fun commit member cell drawnCell => eq_true (vertices commit member cell drawnCell))]
    simp only [List.forall_mem_cons, List.forall_mem_append, List.forall_mem_map]
    refine ⟨base.1, base.2, ⟨fun _ _ => trivial, fun fact member => ?_⟩, fun _ _ => trivial⟩
    obtain ⟨position, inRange, rfl⟩ := List.mem_mapIdx.mp member
    trivial
  exact fun cell member => told _ (List.mem_map_of_mem member)

end History

/-- The cells of a document are found four elements deep. -/
theorem Element.inside?_fileElement
    (timestamp : String)
    (cells : List Element) :
    (fileElement timestamp cells).inside? ["mxfile", "diagram", "mxGraphModel", "root"] =
      some cells := by
  rfl

theorem Element.areWellNamed_eq_all (elements : List Element) :
    Element.areWellNamed elements = elements.all Element.isWellNamed := by
  induction elements with
  | nil =>
      rfl
  | cons first rest inductionHypothesis =>
      rw [areWellNamed, inductionHypothesis, List.all_cons]

theorem Element.isWellNamed_fileElement
    {timestamp : String}
    {cells : List Element}
    (wellNamed : cells.all Element.isWellNamed = true) :
    (fileElement timestamp cells).isWellNamed = true := by
  simp only [fileElement, sheetAttributes, Element.isWellNamed, Element.areWellNamed,
    Element.areWellNamed_eq_all, List.map_cons, List.map_nil, wellNamed]
  decide

/-- A cell with proper names that bears some texts. -/
structure Element.Bears (cell : Element) (text : CellText) : Prop where
  wellNamed : cell.isWellNamed = true
  tagged : cell.tag = "mxCell"
  texts : cell.cellText = text

theorem Branch.bears_of_cell
    {rendering : Rendering}
    {spacingY : Quantity}
    {branch : Branch}
    {cell : Element}
    (drawn : branch.cell rendering spacingY = .ok cell) :
    cell.Bears branch.cellText := by
  obtain ⟨y, -, rfl⟩ := Branch.cell_eq_ok_iff.mp drawn
  refine ⟨?_, rfl, rfl⟩
  simp only [Element.cell, Element.geometry, Element.isWellNamed, Element.areWellNamed,
    List.map_cons, List.map_nil]
  decide

theorem Edge.bears_cell
    (position : Nat)
    (edge : Edge) :
    (edge.cell position).Bears (edge.cellText position) := by
  refine ⟨?_, rfl, rfl⟩
  simp only [Edge.cell, Element.cell, Element.isWellNamed, Element.areWellNamed,
    List.map_cons, List.map_nil]
  decide

/-- The cell of a commit bears the texts of the commit. -/
theorem CommitNode.bears_of_cell
    {rendering : Rendering}
    {commit : CommitNode}
    {cell : Element}
    (drawn : commit.cell rendering = .ok cell) :
    cell.Bears commit.cellText := by
  obtain ⟨size, -, x, -, y, -, rfl⟩ := CommitNode.cell_eq_ok_iff.mp drawn
  refine ⟨?_, rfl, rfl⟩
  simp only [Element.cell, Element.geometry, Element.isWellNamed, Element.areWellNamed,
    List.map_cons, List.map_nil]
  decide

namespace History

/-- The texts in the cells are those that the history calls for, in order. -/
theorem map_cellText_cells
    {rendering : Rendering}
    {spacingY : Quantity}
    {history : History}
    {cells : List Element}
    (drawn : history.cells rendering spacingY = .ok cells) :
    cells.map Element.cellText = history.cellTexts :=
  map_cells _ _ _ _ drawn
    (fun _ _ _ drawnCell => (Branch.bears_of_cell drawnCell).texts)
    (fun edge _ position => (edge.bears_cell position).texts)
    (fun _ _ _ drawnCell => (CommitNode.bears_of_cell drawnCell).texts)

/-- All names in the document of a history are proper. -/
theorem isWellNamed_document
    {rendering : Rendering}
    {spacingY : Quantity}
    {now : String}
    {history : History}
    {document : Element}
    (drawn : history.document rendering spacingY now = .ok document) :
    document.isWellNamed = true := by
  obtain ⟨cells, drawnCells, rfl⟩ := map_eq_ok_iff.mp drawn
  exact Element.isWellNamed_fileElement <| List.all_eq_true.mpr <|
    forall_mem_cells drawnCells (by decide)
      (fun _ _ _ drawnCell => (Branch.bears_of_cell drawnCell).wellNamed)
      (fun edge _ position => (edge.bears_cell position).wellNamed)
      (fun _ _ _ drawnCell => (CommitNode.bears_of_cell drawnCell).wellNamed)

/-- The document of a history is read as it was drawn. -/
theorem read?_render
    {rendering : Rendering}
    {spacingY : Quantity}
    {now text : String}
    {history : History}
    (rendered : history.render rendering spacingY now = .ok text) :
    ∃ cells,
      history.cells rendering spacingY = .ok cells ∧
        Markup.read? text = some (fileElement (rendering.timestamp now) cells) := by
  obtain ⟨document, drawn, rfl⟩ := map_eq_ok_iff.mp rendered
  have wellNamed := isWellNamed_document drawn
  obtain ⟨cells, drawnCells, rfl⟩ := map_eq_ok_iff.mp drawn
  refine ⟨cells, drawnCells, ?_⟩
  cases rendering.pretty with
  | true =>
      exact Element.read?_pretty wellNamed
  | false =>
      exact Element.read?_compact wellNamed

/-- The cells that are read from the document of a history are those that were drawn. -/
theorem cellsOf?_render
    {rendering : Rendering}
    {spacingY : Quantity}
    {now text : String}
    {history : History}
    (rendered : history.render rendering spacingY now = .ok text) :
    ∃ cells, history.cells rendering spacingY = .ok cells ∧ cellsOf? text = some cells := by
  obtain ⟨cells, drawn, read⟩ := read?_render rendered
  have tagged : ∀ cell ∈ cells, cell.tag = "mxCell" :=
    forall_mem_cells drawn ⟨rfl, rfl⟩
      (fun _ _ _ drawnCell => (Branch.bears_of_cell drawnCell).tagged)
      (fun edge _ position => (edge.bears_cell position).tagged)
      (fun _ _ _ drawnCell => (CommitNode.bears_of_cell drawnCell).tagged)
  have allTagged : (cells.all fun cell => cell.tag == "mxCell") = true :=
    List.all_eq_true.mpr fun cell member => beq_iff_eq.mpr (tagged cell member)
  refine ⟨cells, drawn, ?_⟩
  simp only [cellsOf?, read, Element.inside?_fileElement, Option.bind_eq_bind, Option.bind_some,
    allTagged, ite_true]

end History

end GitLanes
