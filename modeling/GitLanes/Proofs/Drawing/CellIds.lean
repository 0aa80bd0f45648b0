import GitLanes.Conversion
import GitLanes.Proofs.Drawing.Cells
import GitLanes.Proofs.Layout.Topology
import GitLanes.Proofs.Number.Numerals

namespace GitLanes

/-!
# Identifiers of cells

The base, the labels and the edges of a drawing bear identifiers of their own,
which never clash with each other. A commit is drawn under the identifier that
it was given, so whether the cells of a drawing can be told apart depends on
whether a commit was given one of those.
-/

mutual

/-- The elements with a tag, an element before those inside it. -/
def Element.withTag (tag : String) : Element → List Element
  | .mk own attributes children =>
      (if own = tag then [.mk own attributes children] else []) ++ Element.allWithTag tag children

/-- The elements with a tag among some elements and inside them. -/
def Element.allWithTag (tag : String) : List Element → List Element
  | [] => []
  | element :: rest => element.withTag tag ++ Element.allWithTag tag rest

end

/-- All cells of a document, wherever they stand in it. -/
def mxCells? (text : String) : Option (List Element) :=
  (Markup.read? text).map (Element.withTag "mxCell")

/-- The identifiers under which the base, the labels and the edges of a history are drawn. -/
def History.reservedIds (history : History) : List String :=
  "0" :: "1" ::
    ((history.branches.map fun branch => "label-" ++ branch.name) ++
      history.edges.mapIdx fun position _ => "edge-" ++ integerText position)

/-- Where what is told of items is distinct, it tells of one item only. -/
theorem filter_eq_singleton
    {α β : Type}
    [BEq β]
    [LawfulBEq β]
    {tell : α → β}
    {items : List α}
    {item : α}
    (distinct : (items.map tell).Nodup)
    (member : item ∈ items) :
    items.filter (fun other => tell other == tell item) = [item] := by
  induction items with
  | nil =>
      contradiction
  | cons first rest inductionHypothesis =>
      rw [List.map_cons, List.nodup_cons] at distinct
      rcases List.mem_cons.mp member with rfl | later
      · have none : rest.filter (fun other => tell other == tell item) = [] := by
          refine List.filter_eq_nil_iff.mpr fun other listed same => distinct.1 ?_
          exact beq_iff_eq.mp same ▸ List.mem_map_of_mem listed
        rw [List.filter_cons_of_pos (by simp), none]
      · have apart : ¬(tell first == tell item) = true := fun same =>
          distinct.1 (beq_iff_eq.mp same ▸ List.mem_map_of_mem later)
        rw [List.filter_cons, if_neg apart, inductionHypothesis distinct.2 later]

namespace History

/-- Branches of different names have labels of different identifiers. -/
theorem nodup_labelIds
    {history : History}
    (distinctNames : (history.branches.map Branch.name).Nodup) :
    (history.branches.map fun branch => "label-" ++ branch.name).Nodup := by
  have labelled : ((history.branches.map Branch.name).map ("label-" ++ ·)).Nodup :=
    distinctNames.map fun _ _ => (String.append_right_inj _).mp
  rwa [List.map_map] at labelled

theorem nodup_edgeIds (history : History) :
    (history.edges.mapIdx fun position _ =>
      "edge-" ++ integerText position).Nodup := by
  rw [List.Nodup, List.pairwise_iff_getElem]
  intro first second _ _ inFront same
  rw [List.getElem_mapIdx, List.getElem_mapIdx] at same
  have positions := append_integerText_inj same
  omega

/-- What is drawn under a reserved identifier can be told apart, if the branches can. -/
theorem nodup_reservedIds
    {history : History}
    (distinctNames : (history.branches.map Branch.name).Nodup) :
    history.reservedIds.Nodup := by
  -- Identifiers of different kinds differ in their first characters.
  have labels : ∀ id ∈ history.branches.map fun branch => "label-" ++ branch.name,
      id.toList.head? = some 'l' := by
    rw [List.forall_mem_map]
    exact fun branch _ => by simp
  have lines : ∀ id ∈ history.edges.mapIdx fun position _ =>
      "edge-" ++ integerText position, id.toList.head? = some 'e' := by
    intro id member
    obtain ⟨position, -, rfl⟩ := List.mem_mapIdx.mp member
    simp
  rw [reservedIds, List.nodup_cons, List.nodup_cons, List.nodup_append, List.mem_cons,
    List.mem_append]
  refine ⟨?zero, ?one, nodup_labelIds distinctNames, nodup_edgeIds history, ?apart⟩
  case zero =>
    rintro (isOne | isLabel | isLine)
    · exact absurd isOne (by decide)
    · exact absurd (labels _ isLabel) (by decide)
    · exact absurd (lines _ isLine) (by decide)
  case one =>
    rintro isLater
    rcases List.mem_append.mp isLater with isLabel | isLine
    · exact absurd (labels _ isLabel) (by decide)
    · exact absurd (lines _ isLine) (by decide)
  case apart =>
    rintro id isLabel _ isLine rfl
    have heads := (labels _ isLabel).symm.trans (lines _ isLine)
    exact absurd heads (by decide)

/-- The cells of a drawing bear the reserved identifiers and then those of the commits. -/
theorem map_id_cells
    {rendering : Rendering}
    {spacingY : Quantity}
    {history : History}
    {cells : List Element}
    (drawn : history.cells rendering spacingY = .ok cells) :
    (cells.map fun cell => cell.attribute? "id") =
      (history.reservedIds ++ history.ids).map some := by
  rw [show (fun cell : Element => cell.attribute? "id") = CellText.id ∘ Element.cellText from rfl,
    ← List.map_map, map_cellText_cells drawn]
  simp only [cellTexts, reservedIds, ids, List.map_cons, List.map_append, List.map_map, map_mapIdx,
    List.cons_append]
  rfl

/-- The cells have distinct identifiers exactly if no commit bears a reserved one. -/
theorem nodup_map_id_cells_iff
    {rendering : Rendering}
    {spacingY : Quantity}
    {history : History}
    {cells : List Element}
    (drawn : history.cells rendering spacingY = .ok cells)
    (distinctNames : (history.branches.map Branch.name).Nodup)
    (distinct : history.ids.Nodup) :
    (cells.map fun cell => cell.attribute? "id").Nodup ↔
      ∀ commit ∈ history.commits, commit.id ∉ history.reservedIds := by
  rw [map_id_cells drawn, List.nodup_map_iff (fun _ _ => Option.some.inj), List.nodup_append]
  constructor
  · rintro ⟨-, -, apart⟩ commit member isReserved
    exact apart _ isReserved _ (List.mem_map_of_mem member) rfl
  · intro free
    refine ⟨nodup_reservedIds distinctNames, distinct, ?_⟩
    rintro id isReserved _ isCommit rfl
    obtain ⟨commit, member, rfl⟩ := List.mem_map.mp isCommit
    exact free commit member isReserved

/-- The cells of a drawing are cells and hold no others. -/
theorem allWithTag_cells
    {rendering : Rendering}
    {spacingY : Quantity}
    {history : History}
    {cells : List Element}
    (drawn : history.cells rendering spacingY = .ok cells) :
    Element.allWithTag "mxCell" cells = cells := by
  have alone : ∀ cell ∈ cells, cell.withTag "mxCell" = [cell] := by
    refine forall_mem_cells drawn ⟨rfl, rfl⟩ ?labels (fun _ _ _ => rfl) ?vertices
    case labels =>
      intro branch _ cell drawnCell
      obtain ⟨y, -, rfl⟩ := Branch.cell_eq_ok_iff.mp drawnCell
      rfl
    case vertices =>
      intro commit _ cell drawnCell
      obtain ⟨size, -, x, -, y, -, rfl⟩ := CommitNode.cell_eq_ok_iff.mp drawnCell
      rfl
  clear drawn
  induction cells with
  | nil =>
      rfl
  | cons cell rest inductionHypothesis =>
      rw [List.forall_mem_cons] at alone
      rw [Element.allWithTag, alone.1, inductionHypothesis alone.2, List.singleton_append]

/-- The cells that are found in a document are those that were drawn. -/
theorem mxCells?_render
    {rendering : Rendering}
    {spacingY : Quantity}
    {now text : String}
    {history : History}
    (rendered : history.render rendering spacingY now = .ok text) :
    ∃ cells, history.cells rendering spacingY = .ok cells ∧ mxCells? text = some cells := by
  obtain ⟨cells, drawn, read⟩ := read?_render rendered
  refine ⟨cells, drawn, ?_⟩
  have inside := allWithTag_cells drawn
  simp [mxCells?, read, fileElement, Element.withTag, Element.allWithTag, inside]

theorem mxCells?_convert
    {settings : Settings}
    {rendering : Rendering}
    {now source text : String}
    {history : History}
    (laid : layoutSource settings source = .ok history)
    (converted : convert settings rendering now source = .ok text) :
    ∃ cells,
      history.cells rendering settings.spacingY = .ok cells ∧ mxCells? text = some cells := by
  rw [convert, laid] at converted
  exact mxCells?_render converted

/-- A commit has a cell of its own, if the cells can be told apart. -/
theorem filter_id_cells
    {rendering : Rendering}
    {spacingY : Quantity}
    {history : History}
    {cells : List Element}
    (drawn : history.cells rendering spacingY = .ok cells)
    (distinct : (cells.map fun cell => cell.attribute? "id").Nodup)
    {commit : CommitNode}
    (member : commit ∈ history.commits) :
    ∃ vertex,
      commit.cell rendering = .ok vertex ∧
        cells.filter (fun cell => cell.attribute? "id" == some commit.id) = [vertex] := by
  obtain ⟨labels, -, vertices, committed, rfl⟩ := cells_eq_ok_iff.mp drawn
  obtain ⟨vertex, listed, drawnVertex⟩ := exists_of_forall₂ committed member
  have named : vertex.attribute? "id" = some commit.id :=
    congrArg CellText.id (CommitNode.bears_of_cell drawnVertex).texts
  refine ⟨vertex, drawnVertex, ?_⟩
  have isCell : vertex ∈ .cell [("id", "0")] [] :: .cell [("id", "1"), ("parent", "0")] [] ::
      (labels ++ history.edges.mapIdx Edge.cell ++ vertices) :=
    List.mem_cons_of_mem _ (List.mem_cons_of_mem _ (List.mem_append_right _ listed))
  rw [← named]
  exact filter_eq_singleton distinct isCell

/-- Every edge has a line that shows its ends. -/
theorem exists_line
    {rendering : Rendering}
    {spacingY : Quantity}
    {history : History}
    {cells : List Element}
    (drawn : history.cells rendering spacingY = .ok cells)
    {edge : Edge}
    (member : edge ∈ history.edges) :
    ∃ line ∈ cells,
      line.attribute? "edge" = some "1" ∧
        line.attribute? "source" = some edge.source ∧
          line.attribute? "target" = some edge.target := by
  obtain ⟨labels, -, vertices, -, rfl⟩ := cells_eq_ok_iff.mp drawn
  obtain ⟨position, inRange, rfl⟩ := List.getElem_of_mem member
  have listed : Edge.cell position history.edges[position] ∈ history.edges.mapIdx Edge.cell :=
    List.mem_mapIdx.mpr ⟨position, inRange, rfl⟩
  refine ⟨_, List.mem_cons_of_mem _ (List.mem_cons_of_mem _ (List.mem_append_left _
    (List.mem_append_right _ listed))), rfl, rfl, rfl⟩

theorem ends_of_lines
    {rendering : Rendering}
    {spacingY : Quantity}
    {history : History}
    {cells : List Element}
    (drawn : history.cells rendering spacingY = .ok cells)
    (known : ∀ edge ∈ history.edges, edge.source ∈ history.ids ∧ edge.target ∈ history.ids) :
    ∀ line ∈ cells,
      line.attribute? "edge" = some "1" →
        ∀ name ∈ ["source", "target"],
          ∃ commit ∈ history.commits, line.attribute? name = some commit.id := by
  refine forall_mem_cells drawn ⟨nofun, nofun⟩ ?labels ?lines ?vertices
  case labels =>
    intro branch _ cell drawnCell isLine
    have noLine : cell.attribute? "edge" = none :=
      congrArg CellText.edge (Branch.bears_of_cell drawnCell).texts
    exact nomatch noLine.symm.trans isLine
  case lines =>
    intro edge member position _ name isEnd
    have drawnUnder : ∀ id ∈ history.ids, ∃ commit ∈ history.commits, some id = some commit.id := by
      intro id isId
      obtain ⟨commit, listed, rfl⟩ := List.mem_map.mp isId
      exact ⟨commit, listed, rfl⟩
    simp only [List.mem_cons, List.not_mem_nil, or_false] at isEnd
    rcases isEnd with rfl | rfl
    · exact drawnUnder edge.source (known edge member).1
    · exact drawnUnder edge.target (known edge member).2
  case vertices =>
    intro commit _ cell drawnCell isLine
    have noLine : cell.attribute? "edge" = none :=
      congrArg CellText.edge (CommitNode.bears_of_cell drawnCell).texts
    exact nomatch noLine.symm.trans isLine

end History

/--
The cells of a drawing have different identifiers exactly if no commit was given a reserved one.

Every line of an edge then starts and ends at one cell, which is that of a commit.
-/
theorem cell_ids_are_distinct_iff
    {settings : Settings}
    {rendering : Rendering}
    {now source text : String}
    {history : History}
    (laid : layoutSource settings source = .ok history)
    (distinct : history.ids.Nodup)
    (converted : convert settings rendering now source = .ok text) :
    ∃ cells,
      mxCells? text = some cells ∧
        (cells.map fun cell => cell.attribute? "id") =
            (history.reservedIds ++ history.ids).map some ∧
          ((cells.map fun cell => cell.attribute? "id").Nodup ↔
            ∀ commit ∈ history.commits, commit.id ∉ history.reservedIds) ∧
            (∀ edge ∈ history.edges,
              ∃ line ∈ cells,
                line.attribute? "edge" = some "1" ∧
                  line.attribute? "source" = some edge.source ∧
                    line.attribute? "target" = some edge.target) ∧
            ((∀ commit ∈ history.commits, commit.id ∉ history.reservedIds) →
              ∀ line ∈ cells,
                line.attribute? "edge" = some "1" →
                  ∀ name ∈ ["source", "target"],
                    ∃ commit ∈ history.commits,
                      line.attribute? name = some commit.id ∧
                        ∃ vertex,
                          commit.cell rendering = .ok vertex ∧
                            cells.filter
                                (fun cell => cell.attribute? "id" == some commit.id) =
                              [vertex]) := by
  obtain ⟨cells, drawn, read⟩ := History.mxCells?_convert laid converted
  obtain ⟨script, -, rfl⟩ := map_eq_ok_iff.mp laid
  have consistent := Layout.consistent_replay settings script.directives
  have apart := History.nodup_map_id_cells_iff drawn consistent.distinctNames distinct
  refine ⟨cells, read, History.map_id_cells drawn, apart,
    fun _ isEdge => History.exists_line drawn isEdge, ?_⟩
  intro free line isCell isLine name isEnd
  obtain ⟨commit, member, named⟩ :=
    History.ends_of_lines drawn consistent.edgesKnown line isCell isLine name isEnd
  exact ⟨commit, member, named, History.filter_id_cells drawn (apart.mpr free) member⟩

/-- Two plain commits give a document without a repeated identifier. -/
theorem cell_ids_are_distinct_for_two_commits :
    ∃ text cells,
      convert {} {} "noon" "commit\ncommit id:\"last\"" = .ok text ∧
        mxCells? text = some cells ∧
          (cells.map fun cell => cell.attribute? "id") =
              [some "0", some "1", some "label-main", some "edge-0", some "c0", some "last"] ∧
            (cells.map fun cell => cell.attribute? "id").Nodup := by
  have laid : layoutSource {} "commit\ncommit id:\"last\"" = .ok {
      branches := [{ name := "main", laneIndex := 0, color := "#1E90FF", tip := some "last" }]
      commits := [
        { id := "c0", label := "c0", x := .int 0, y := .int 0, branch := "main",
          color := "#1E90FF", isMerge := false },
        { id := "last", label := "last", x := .int 150, y := .int 0, branch := "main",
          color := "#1E90FF", isMerge := false }]
      edges := [{ source := "c0", target := "last", color := "#1E90FF", isMergeLine := false }] } := by
    rfl
  obtain ⟨text, converted⟩ :
      ∃ text, convert {} {} "noon" "commit\ncommit id:\"last\"" = .ok text :=
    exists_eq_ok (by decide +kernel)
  obtain ⟨cells, read, named, apart, -⟩ :=
    cell_ids_are_distinct_iff laid (by decide) converted
  exact ⟨text, cells, converted, read, named, apart.mpr (by decide)⟩

/-- A commit that is called like the first cell of every drawing repeats its identifier. -/
theorem cell_ids_repeat_for_a_commit_named_zero :
    ∃ history text cells,
      layoutSource {} "commit id:\"0\"" = .ok history ∧
        history.ids.Nodup ∧
          convert {} {} "noon" "commit id:\"0\"" = .ok text ∧
            mxCells? text = some cells ∧
              (cells.map fun cell => cell.attribute? "id") =
                  [some "0", some "1", some "label-main", some "0"] ∧
                ¬(cells.map fun cell => cell.attribute? "id").Nodup := by
  have laid : layoutSource {} "commit id:\"0\"" = .ok {
      branches := [{ name := "main", laneIndex := 0, color := "#1E90FF", tip := some "0" }]
      commits := [
        { id := "0", label := "0", x := .int 0, y := .int 0, branch := "main",
          color := "#1E90FF", isMerge := false }]
      edges := [] } := by
    rfl
  obtain ⟨text, converted⟩ : ∃ text, convert {} {} "noon" "commit id:\"0\"" = .ok text :=
    exists_eq_ok (by decide +kernel)
  obtain ⟨cells, drawn, read⟩ := History.mxCells?_convert laid converted
  have named := History.map_id_cells drawn
  refine ⟨_, text, cells, laid, by decide, converted, read, named, ?_⟩
  rw [named]
  decide

end GitLanes
