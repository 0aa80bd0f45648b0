import GitLanes.Proofs.Drawing.Cells
import GitLanes.Proofs.Number.Numerals

namespace GitLanes

/-!
# Faithful documents

Nothing that a drawing shows is lost in its document. Names, identifiers and
labels are attributes of their cells; the places of commits are numerals; and
the colors stand at the end of a style, behind settings that tell the kinds of
cells apart. Two histories with the same document therefore look the same.
-/

/-- What a drawing shows of a branch. -/
structure BranchView where
  name : String
  color : String
  deriving Repr, DecidableEq

/-- What a drawing shows of an edge. -/
structure EdgeView where
  source : String
  target : String
  color : String
  deriving Repr, DecidableEq

/-- What a drawing shows of a commit. -/
structure CommitView where
  id : String
  label : String
  x : Quantity
  y : Quantity
  color : String
  isMerge : Bool
  deriving Repr, DecidableEq

/-- What a drawing shows of a history. -/
structure HistoryView where
  branches : List BranchView
  edges : List EdgeView
  commits : List CommitView
  deriving Repr, DecidableEq

/-- What is shown of a branch. -/
def Branch.view (branch : Branch) : BranchView where
  name := branch.name
  color := branch.color

/-- What is shown of an edge; one without a color is drawn in the default color. -/
def Edge.view (edge : Edge) : EdgeView where
  source := edge.source
  target := edge.target
  color := if edge.color = "" then "#000000" else edge.color

/-- What is shown of a commit. -/
def CommitNode.view (commit : CommitNode) : CommitView where
  id := commit.id
  label := commit.label
  x := commit.x
  y := commit.y
  color := commit.color
  isMerge := commit.isMerge

/-- What is shown of a history. -/
def History.view (history : History) : HistoryView where
  branches := history.branches.map Branch.view
  edges := history.edges.map Edge.view
  commits := history.commits.map CommitNode.view

/-- A commit lies on whole coordinates. -/
def CommitNode.IsIntegral (commit : CommitNode) : Prop :=
  ∃ x y : Int, commit.x = .int x ∧ commit.y = .int y

/-- A color that does not end a setting of a style. -/
def CommitNode.HasPlainColor (commit : CommitNode) : Prop :=
  ';' ∉ commit.color.toList

namespace Element

/-- The place of a cell, if its coordinates are integers. -/
def place? (cell : Element) : Option (Quantity × Quantity) := do
  let geometry ← cell.children.head?
  let x ← geometry.attribute? "x"
  let y ← geometry.attribute? "y"
  let x ← integerOf? x.toList
  let y ← integerOf? y.toList
  return (.int x, .int y)

/-- What follows the settings that the style of a cell starts with. -/
def styleAfter? (settings : String) (cell : Element) : Option (List Char) :=
  (cell.attribute? "style").bind fun style => settings.toList.isPrefixOf? style.toList

/-- The branch that a cell is the label of. -/
def branchView? (cell : Element) : Option BranchView := do
  let setting ← cell.styleAfter? (labelBaseStyle ++ ";fontColor=")
  let name ← cell.attribute? "value"
  return ⟨name, String.ofList setting.dropLast⟩

/-- The edge that a cell shows. -/
def edgeView? (cell : Element) : Option EdgeView := do
  let setting ← cell.styleAfter? (edgeBaseStyle ++ "strokeColor=")
  let source ← cell.attribute? "source"
  let target ← cell.attribute? "target"
  return ⟨source, target, String.ofList setting.dropLast⟩

/-- The commit that a cell shows, a merge being one with further settings after its color. -/
def commitView? (cell : Element) : Option CommitView := do
  let settings ← cell.styleAfter? (commitBaseStyle ++ "strokeColor=")
  let id ← cell.attribute? "id"
  let label ← cell.attribute? "value"
  let (x, y) ← cell.place?
  return ⟨id, label, x, y, String.ofList (settings.takeWhile (· != ';')),
    settings.dropWhile (· != ';') != [';']⟩

/-- What a cell shows. -/
def views (cell : Element) : Option BranchView × Option EdgeView × Option CommitView :=
  (cell.branchView?, cell.edgeView?, cell.commitView?)

end Element

/-! Which cells of a drawing stand for branches, edges and commits. -/

/-- What follows the settings in a style is found behind them. -/
theorem Element.styleAfter?_append
    {cell : Element}
    {settings rest : String}
    (styled : cell.attribute? "style" = some (settings ++ rest)) :
    cell.styleAfter? settings = some rest.toList := by
  rw [styleAfter?, styled, Option.bind_some, String.toList_append]
  exact List.isPrefixOf?_eq_some_iff_append_eq.mpr rfl

/-- A style that starts with another letter does not have the settings. -/
theorem Element.styleAfter?_eq_none
    {cell : Element}
    {settings style : String}
    {first second : Char}
    (styled : cell.attribute? "style" = some style)
    (settings_start : settings.toList.head? = some first)
    (style_starts : style.toList.head? = some second)
    (apart : first ≠ second) :
    cell.styleAfter? settings = none := by
  obtain ⟨settingsRest, written⟩ := List.head?_eq_some_iff.mp settings_start
  obtain ⟨styleRest, writtenStyle⟩ := List.head?_eq_some_iff.mp style_starts
  rw [styleAfter?, styled, Option.bind_some, written, writtenStyle]
  simp [List.isPrefixOf?, apart]

theorem head?_labelBaseStyle : labelBaseStyle.toList.head? = some 't' := by
  delta labelBaseStyle
  rw [String.toList_append, List.head?_append, String.toList_ofList]
  rfl

theorem head?_commitBaseStyle : commitBaseStyle.toList.head? = some 'e' := by
  delta commitBaseStyle
  rw [String.toList_append, List.head?_append, String.toList_ofList]
  rfl

theorem head?_toList_append
    {first : Char}
    {front : String}
    (starts : front.toList.head? = some first)
    (back : String) :
    (front ++ back).toList.head? = some first := by
  rw [String.toList_append, List.head?_append, starts, Option.some_or]

theorem Branch.style_eq (branch : Branch) :
    branch.style = labelBaseStyle ++ ";fontColor=" ++ (branch.color ++ ";") := by
  rw [style, String.append_assoc]

/-- The style of an edge is its settings and then the color that it shows. -/
theorem Edge.style_eq (edge : Edge) :
    edge.style = edgeBaseStyle ++ "strokeColor=" ++ (edge.view.color ++ ";") := by
  rw [style, String.append_assoc, view, defaultEdgeColor]

theorem CommitNode.style_eq (commit : CommitNode) :
    commit.style = commitBaseStyle ++ "strokeColor=" ++ (commit.color ++ (";" ++
      if commit.isMerge then "fillColor=" ++ commit.color ++ ";fontColor=#FFFFFF;" else "")) := by
  simp only [style, String.append_assoc]

namespace Element

/-- The label of a branch is read as that branch, and as nothing else. -/
theorem views_of_label
    {cell : Element}
    {branch : Branch}
    (bears : cell.Bears branch.cellText) :
    cell.views = (some branch.view, none, none) := by
  have value : cell.attribute? "value" = some branch.name := congrArg CellText.value bears.texts
  have source : cell.attribute? "source" = none := congrArg CellText.source bears.texts
  have style : cell.attribute? "style" = some branch.style := congrArg CellText.style bears.texts
  -- Labels and vertices are told apart by the first character of their styles.
  have starts := head?_toList_append (head?_toList_append head?_labelBaseStyle ";fontColor=")
    (branch.color ++ ";")
  have foreign := styleAfter?_eq_none (branch.style_eq ▸ style)
    (head?_toList_append head?_commitBaseStyle "strokeColor=") starts (by decide)
  refine Prod.ext ?branch (Prod.ext ?edge ?commit)
  case branch =>
    simp [views, branchView?, styleAfter?_append (branch.style_eq ▸ style), value, Branch.view]
  case edge =>
    cases found : cell.styleAfter? (edgeBaseStyle ++ "strokeColor=") <;>
      simp [views, edgeView?, found, source]
  case commit =>
    simp [views, commitView?, foreign]

/-- The cell of an edge is read as that edge, and as nothing else. -/
theorem views_of_line
    {cell : Element}
    {position : Nat}
    {edge : Edge}
    (bears : cell.Bears (edge.cellText position)) :
    cell.views = (none, some edge.view, none) := by
  have value : cell.attribute? "value" = none := congrArg CellText.value bears.texts
  have source : cell.attribute? "source" = some edge.source :=
    congrArg CellText.source bears.texts
  have target : cell.attribute? "target" = some edge.target :=
    congrArg CellText.target bears.texts
  have style : cell.attribute? "style" = some edge.style := congrArg CellText.style bears.texts
  refine Prod.ext ?branch (Prod.ext ?edge ?commit)
  case branch =>
    cases found : cell.styleAfter? (labelBaseStyle ++ ";fontColor=") <;>
      simp [views, branchView?, found, value]
  case edge =>
    simp [views, edgeView?, styleAfter?_append (edge.style_eq ▸ style), source, target, Edge.view]
  case commit =>
    cases found : cell.styleAfter? (commitBaseStyle ++ "strokeColor=") <;>
      simp [views, commitView?, found, value]

/-- The place of a commit at integers can be read off its cell. -/
theorem place?_of_vertex
    {rendering : Rendering}
    {commit : CommitNode}
    {cell : Element}
    (integral : commit.IsIntegral)
    (drawn : commit.cell rendering = .ok cell) :
    cell.place? = some (commit.x, commit.y) := by
  obtain ⟨x, y, at_x, at_y⟩ := integral
  obtain ⟨size, -, writtenX, drawnX, writtenY, drawnY, rfl⟩ := CommitNode.cell_eq_ok_iff.mp drawn
  rw [at_x] at drawnX
  rw [at_y] at drawnY
  obtain rfl := Quantity.coordinateText_int drawnX
  obtain rfl := Quantity.coordinateText_int drawnY
  have inX : ∀ x y size, (geometry x y size size).attribute? "x" = some x := fun _ _ _ => rfl
  have inY : ∀ x y size, (geometry x y size size).attribute? "y" = some y := fun _ _ _ => rfl
  simp [place?, cell, children, inX, inY, toList_integerText, integerOf?_integerNumeral, at_x, at_y]

/-- The cell of a commit is read as that commit, and as nothing else. -/
theorem views_of_vertex
    {rendering : Rendering}
    {commit : CommitNode}
    {cell : Element}
    (integral : commit.IsIntegral)
    (plain : commit.HasPlainColor)
    (drawn : commit.cell rendering = .ok cell) :
    cell.views = (none, none, some commit.view) := by
  have bears := CommitNode.bears_of_cell drawn
  have id : cell.attribute? "id" = some commit.id := congrArg CellText.id bears.texts
  have value : cell.attribute? "value" = some commit.label :=
    congrArg CellText.value bears.texts
  have source : cell.attribute? "source" = none := congrArg CellText.source bears.texts
  have style : cell.attribute? "style" = some commit.style := congrArg CellText.style bears.texts
  have starts := head?_toList_append
    (head?_toList_append head?_commitBaseStyle "strokeColor=") (commit.color ++ (";" ++
      if commit.isMerge then "fillColor=" ++ commit.color ++ ";fontColor=#FFFFFF;" else ""))
  have foreign := styleAfter?_eq_none (commit.style_eq ▸ style)
    (head?_toList_append head?_labelBaseStyle ";fontColor=") starts (by decide)
  -- The setting of the color ends with the first semicolon, as the color holds none.
  have inColor : ∀ character ∈ commit.color.toList, (character != ';') = true :=
    fun character member => bne_iff_ne.mpr fun semicolon => plain (semicolon ▸ member)
  refine Prod.ext ?branch (Prod.ext ?edge ?commit)
  case branch =>
    simp [views, branchView?, foreign]
  case edge =>
    cases found : cell.styleAfter? (edgeBaseStyle ++ "strokeColor=") <;>
      simp [views, edgeView?, found, source]
  case commit =>
    rw [views, commitView?, styleAfter?_append (commit.style_eq ▸ style), id, value,
      place?_of_vertex integral drawn]
    cases merge : commit.isMerge <;>
      simp [CommitNode.view, merge, List.takeWhile_append_of_pos inColor,
        List.dropWhile_append_of_pos inColor]

end Element

namespace History

/-- What is shown by some cells. -/
def viewOf (cells : List Element) : HistoryView where
  branches := (cells.map Element.views).filterMap fun shown => shown.1
  edges := (cells.map Element.views).filterMap fun shown => shown.2.1
  commits := (cells.map Element.views).filterMap fun shown => shown.2.2

/-- The view of the cells of a drawing is that of its history. -/
theorem viewOf_cells
    {rendering : Rendering}
    {spacingY : Quantity}
    {history : History}
    {cells : List Element}
    (integral : ∀ commit ∈ history.commits, commit.IsIntegral)
    (plain : ∀ commit ∈ history.commits, commit.HasPlainColor)
    (drawn : history.cells rendering spacingY = .ok cells) :
    viewOf cells = history.view := by
  have told := map_cells Element.views (fun branch => (some branch.view, none, none))
    (fun _ edge => (none, some edge.view, none)) (fun commit => (none, none, some commit.view))
    drawn
    (fun _ _ _ drawnCell => Element.views_of_label (Branch.bears_of_cell drawnCell))
    (fun edge _ position => Element.views_of_line (edge.bears_cell position))
    (fun commit member _ drawnCell =>
      Element.views_of_vertex (integral commit member) (plain commit member) drawnCell)
  have base : Element.views (.cell [("id", "0")] []) = (none, none, none) ∧
      Element.views (.cell [("id", "1"), ("parent", "0")] []) = (none, none, none) :=
    ⟨rfl, rfl⟩
  rw [base.1, base.2, mapIdx_eq_map] at told
  simp [viewOf, view, told, List.filterMap_map]

/--
A document can be read back.

Its cells are the two base cells, then one label a branch, one line an edge and one vertex a
commit, each with its texts as they are and the vertices at their places. So two histories that
are drawn as one document, at whatever times, show the same branches, edges and commits.
-/
theorem documents_are_faithful
    {rendering : Rendering}
    {spacingY : Quantity}
    {now text : String}
    {history : History}
    (integral : ∀ commit ∈ history.commits, commit.IsIntegral)
    (rendered : history.render rendering spacingY now = .ok text) :
    (∃ labels lines vertices,
      cellsOf? text =
          some (.cell [("id", "0")] [] :: .cell [("id", "1"), ("parent", "0")] [] ::
            (labels ++ lines ++ vertices)) ∧
        labels.map Element.cellText = history.branches.map Branch.cellText ∧
          lines.map Element.cellText = history.edges.mapIdx Edge.cellText ∧
            vertices.map Element.cellText = history.commits.map CommitNode.cellText ∧
              vertices.map Element.place? =
                history.commits.map fun commit => some (commit.x, commit.y)) ∧
      ∀ (other : History) (later : String),
        (∀ commit ∈ other.commits, commit.IsIntegral) →
          other.render rendering spacingY later = .ok text →
            (∀ commit ∈ history.commits, commit.HasPlainColor) →
              (∀ commit ∈ other.commits, commit.HasPlainColor) →
                history.view = other.view := by
  obtain ⟨cells, drawn, read⟩ := cellsOf?_render rendered
  refine ⟨?cells, ?views⟩
  case cells =>
    obtain ⟨labels, labelled, vertices, committed, rfl⟩ := cells_eq_ok_iff.mp drawn
    refine ⟨labels, history.edges.mapIdx Edge.cell, vertices, read, ?_, ?_, ?_, ?_⟩
    · exact map_eq_map_of_forall₂ labelled fun _ _ _ drawnCell =>
        (Branch.bears_of_cell drawnCell).texts
    · simp only [map_mapIdx, (Edge.bears_cell _ _).texts]
    · exact map_eq_map_of_forall₂ committed fun _ _ _ drawnCell =>
        (CommitNode.bears_of_cell drawnCell).texts
    · exact map_eq_map_of_forall₂ committed fun commit member _ drawnCell =>
        Element.place?_of_vertex (integral commit member) drawnCell
  case views =>
    intro other later otherIntegral otherRendered plain otherPlain
    obtain ⟨otherCells, otherDrawn, otherRead⟩ := cellsOf?_render otherRendered
    have same : otherCells = cells := Option.some.inj (otherRead.symm.trans read)
    subst same
    exact (viewOf_cells integral plain drawn).symm.trans
      (viewOf_cells otherIntegral otherPlain otherDrawn)

/-- Two commits whose names look like markup; neither edge nor branch tells all that it is. -/
def markupHistory (tip : Option String) (color : String) (isMergeLine : Bool) : History where
  branches := [{ name := "a\"<b", laneIndex := 0, color := "red;blue", tip }]
  commits := [
    { id := "&amp;", label := "</root>\n\t", x := .int 0, y := .int (-7), branch := "a\"<b",
      color := "#FFF", isMerge := false },
    { id := "edge-0", label := "", x := .int 150, y := .int 0, branch := "", color := "",
      isMerge := true }]
  edges := [{ source := "&amp;", target := "edge-0", color, isMergeLine }]

/-- Two histories whose texts look like markup have one document and one view. -/
theorem documents_are_faithful_to_markup :
    ∃ text,
      (markupHistory none "" true).render {} (.int 100) "noon" = .ok text ∧
        (∃ labels lines vertices,
          cellsOf? text =
              some (.cell [("id", "0")] [] :: .cell [("id", "1"), ("parent", "0")] [] ::
                (labels ++ lines ++ vertices)) ∧
            vertices.map Element.place? = [some (.int 0, .int (-7)), some (.int 150, .int 0)]) ∧
          (markupHistory none "" true).view =
            (markupHistory (some "&amp;") "#000000" false).view := by
  have integral : ∀ tip color isMergeLine,
      ∀ commit ∈ (markupHistory tip color isMergeLine).commits, commit.IsIntegral := by
    simp only [markupHistory, List.forall_mem_cons]
    exact fun _ _ _ => ⟨⟨0, -7, rfl, rfl⟩, ⟨150, 0, rfl, rfl⟩, nofun⟩
  have plain : ∀ tip color isMergeLine,
      ∀ commit ∈ (markupHistory tip color isMergeLine).commits, commit.HasPlainColor := by
    simp only [markupHistory, List.forall_mem_cons, CommitNode.HasPlainColor]
    exact fun _ _ _ => ⟨by decide, by decide, nofun⟩
  obtain ⟨text, rendered⟩ :
      ∃ text, (markupHistory none "" true).render {} (.int 100) "noon" = .ok text :=
    exists_eq_ok (by decide +kernel)
  have same :
      (markupHistory (some "&amp;") "#000000" false).render {} (.int 100) "noon" = .ok text :=
    rendered
  obtain ⟨⟨labels, lines, vertices, read, -, -, -, places⟩, views⟩ :=
    documents_are_faithful (integral none "" true) rendered
  exact ⟨text, rendered, ⟨labels, lines, vertices, read, places⟩,
    views _ "noon" (integral _ _ _) same (plain _ _ _) (plain _ _ _)⟩

end History

end GitLanes
