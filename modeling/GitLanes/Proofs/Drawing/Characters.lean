import GitLanes.Conversion
import GitLanes.Proofs.Drawing.Cells
import GitLanes.Proofs.Layout.Colors
import GitLanes.Proofs.Layout.Commits
import GitLanes.Proofs.Markup.Legality
import GitLanes.Proofs.Number.Numerals
import GitLanes.Proofs.Script.Names

namespace GitLanes

/-!
# Characters of a document

Of all that a source says, only what its commits quote reaches the document
unchecked: names of branches are made of letters, digits and two marks, and
numerals and styles are written by the program. A document is therefore legal
exactly if everything quoted is.
-/

open Markup

theorem isLegalCharacter_of_isNumeralCharacter
    {character : Char}
    (ofNumeral : isNumeralCharacter character = true) :
    isLegalCharacter character = true := by
  rcases Bool.or_eq_true _ _ |>.mp ofNumeral with digit | mark
  · exact isLegalCharacter_of_isAlphanum (by simp [Char.isAlphanum, digit])
  · have legal : ∀ other ∈ ['+', '-', '.', 'a', 'e', 'f', 'i', 'n'],
        isLegalCharacter other = true :=
      List.all_eq_true.mp (by decide)
    exact legal character (by simpa using mark)

theorem isLegal_integerText (value : Int) :
    isLegal (integerText value) = true := by
  rw [integerText, isLegal_ofList, List.all_eq_true]
  exact fun character member => isLegalCharacter_of_isNumeralCharacter
    (isNumeralCharacter_of_mem_integerNumeral value character member)

theorem isLegal_coordinate (value : Double) :
    isLegal (String.ofList value.coordinate) = true := by
  unfold Double.coordinate
  split
  · exact isLegal_integerText _
  · rw [isLegal_ofList, List.all_eq_true]
    exact fun character member => isLegalCharacter_of_isNumeralCharacter
      (value.isNumeralCharacter_of_mem_numeral character member)

/-- A coordinate that could be written is legal. -/
theorem isLegal_coordinateText
    {quantity : Quantity}
    {text : String}
    (written : quantity.coordinateText = .ok text) :
    isLegal text = true := by
  cases quantity with
  | int value =>
      obtain rfl := Quantity.coordinateText_int written
      exact isLegal_integerText value
  | double value =>
      obtain rfl : String.ofList value.coordinate = text := Except.ok.inj written
      exact isLegal_coordinate value

theorem isLegal_labelBaseStyle : isLegal labelBaseStyle = true := by
  delta labelBaseStyle
  rw [isLegal_append, isLegal_ofList, isLegal_ofList]
  decide

theorem isLegal_edgeBaseStyle : isLegal edgeBaseStyle = true := by
  delta edgeBaseStyle
  rw [isLegal_append, isLegal_append, isLegal_ofList, isLegal_ofList, isLegal_ofList]
  decide

theorem isLegal_commitBaseStyle : isLegal commitBaseStyle = true := by
  delta commitBaseStyle
  rw [isLegal_append, isLegal_ofList, isLegal_ofList]
  decide

/-- Whether all that is drawn of a branch is legal. -/
def Branch.isLegal (branch : Branch) : Bool :=
  Markup.isLegal branch.name && Markup.isLegal branch.color

/-- Whether all that is drawn of an edge is legal. -/
def Edge.isLegal (edge : Edge) : Bool :=
  Markup.isLegal edge.source && Markup.isLegal edge.target && Markup.isLegal edge.color

/-- Whether all that is drawn of a commit is legal. -/
def CommitNode.isLegal (commit : CommitNode) : Bool :=
  Markup.isLegal commit.id && Markup.isLegal commit.label && Markup.isLegal commit.color

/-- Whether all that is drawn of a history is legal. -/
def History.isLegal (history : History) : Bool :=
  history.branches.all Branch.isLegal && history.edges.all Edge.isLegal &&
    history.commits.all CommitNode.isLegal

/-- A document is legal exactly if its time and its cells are. -/
theorem isLegal_fileElement
    (timestamp : String)
    (cells : List Element) :
    (fileElement timestamp cells).isLegal =
      (isLegal timestamp && cells.all Element.isLegal) := by
  simp only [fileElement, sheetAttributes, Element.isLegal, Element.areLegal,
    Element.areLegal_eq_all, List.all_cons, List.all_nil]
  generalize isLegal timestamp = time, cells.all Element.isLegal = inside
  revert time inside
  decide +kernel

theorem Branch.isLegal_cell
    {rendering : Rendering}
    {spacingY : Quantity}
    {branch : Branch}
    {cell : Element}
    (drawn : branch.cell rendering spacingY = .ok cell) :
    cell.isLegal = branch.isLegal := by
  obtain ⟨y, -, rfl⟩ := Branch.cell_eq_ok_iff.mp drawn
  simp only [Element.cell, Element.geometry, Element.isLegal, Element.areLegal, List.all_cons,
    List.all_nil, style, isLegal_append, isLegal_labelBaseStyle, isLegal_coordinate, isLegal]
  generalize Markup.isLegal branch.name = name, Markup.isLegal branch.color = color
  revert name color
  decide +kernel

theorem Edge.isLegal_cell
    (edge : Edge)
    (position : Nat) :
    (edge.cell position).isLegal = edge.isLegal := by
  have color : Markup.isLegal (if edge.color = "" then defaultEdgeColor else edge.color) =
      Markup.isLegal edge.color := by
    split
    case isTrue empty =>
      rw [empty]
      decide
    case isFalse =>
      rfl
  simp only [cell, Element.cell, Element.isLegal, Element.areLegal, List.all_cons, List.all_nil,
    style, color, isLegal_append, isLegal_edgeBaseStyle, isLegal_integerText, isLegal]
  generalize Markup.isLegal edge.source = source, Markup.isLegal edge.target = target,
    Markup.isLegal edge.color = color
  revert source target color
  decide +kernel

/-- The style of a commit adds nothing illegal to its color. -/
theorem CommitNode.isLegal_style (commit : CommitNode) :
    Markup.isLegal commit.style = Markup.isLegal commit.color := by
  have marks : Markup.isLegal "strokeColor=" = true ∧ Markup.isLegal ";" = true ∧
      Markup.isLegal "fillColor=" = true ∧ Markup.isLegal ";fontColor=#FFFFFF;" = true ∧
        Markup.isLegal "" = true := by
    decide +kernel
  rw [style]
  split <;> simp [isLegal_commitBaseStyle, marks]

/-- The cell of a commit is legal exactly if the texts of the commit are. -/
theorem CommitNode.isLegal_cell
    {rendering : Rendering}
    {commit : CommitNode}
    {cell : Element}
    (drawn : commit.cell rendering = .ok cell) :
    cell.isLegal = commit.isLegal := by
  obtain ⟨size, legalSize, x, legalX, y, legalY, rfl⟩ := CommitNode.cell_eq_ok_iff.mp drawn
  simp only [Element.cell, Element.geometry, Element.isLegal, Element.areLegal, List.all_cons,
    List.all_nil, isLegal_style, isLegal_coordinateText legalSize, isLegal_coordinateText legalX,
    isLegal_coordinateText legalY, isLegal]
  generalize Markup.isLegal commit.id = id, Markup.isLegal commit.label = label,
    Markup.isLegal commit.color = color
  revert id label color
  decide +kernel

namespace History

/-- The cells of a history are all legal exactly if the history is. -/
theorem all_isLegal_cells
    {rendering : Rendering}
    {spacingY : Quantity}
    {history : History}
    {cells : List Element}
    (drawn : history.cells rendering spacingY = .ok cells) :
    cells.all Element.isLegal = history.isLegal := by
  have told := map_cells Element.isLegal Branch.isLegal (fun _ => Edge.isLegal)
    CommitNode.isLegal drawn
    (fun _ _ _ drawnCell => Branch.isLegal_cell drawnCell)
    (fun edge _ position => edge.isLegal_cell position)
    (fun _ _ _ drawnCell => CommitNode.isLegal_cell drawnCell)
  have base : Element.isLegal (.cell [("id", "0")] []) = true ∧
      Element.isLegal (.cell [("id", "1"), ("parent", "0")] []) = true := by
    decide
  have collected : cells.all Element.isLegal = (cells.map Element.isLegal).all id := by
    rw [List.all_map]
    rfl
  rw [collected, told, base.1, base.2, mapIdx_eq_map]
  simp [isLegal, List.all_map, Bool.and_assoc]

/-- A document is legal exactly if its time and all that is drawn are. -/
theorem isLegal_render
    {rendering : Rendering}
    {spacingY : Quantity}
    {now text : String}
    {history : History}
    (rendered : history.render rendering spacingY now = .ok text) :
    Markup.isLegal text = (Markup.isLegal (rendering.timestamp now) && history.isLegal) := by
  simp only [render, document, map_eq_ok_iff] at rendered
  obtain ⟨_, ⟨cells, drawn, rfl⟩, rfl⟩ := rendered
  have declaration :
      Markup.isLegal "<?xml version=\"1.0\" encoding=\"UTF-8\"?>\n" = true ∧
        Markup.isLegal "\n" = true := by
    decide +kernel
  rw [isLegal_append, isLegal_append, declaration.1, declaration.2, Bool.true_and,
    Bool.and_true, isLegal_ofList]
  cases rendering.pretty with
  | true =>
      exact (Element.all_pretty _).trans (by rw [isLegal_fileElement, all_isLegal_cells drawn])
  | false =>
      exact (Element.all_compact _).trans (by rw [isLegal_fileElement, all_isLegal_cells drawn])

/-- A converted document is legal exactly if its time and its history are. -/
theorem isLegal_convert
    {settings : Settings}
    {rendering : Rendering}
    {now source text : String}
    {history : History}
    (laid : layoutSource settings source = .ok history)
    (converted : convert settings rendering now source = .ok text) :
    Markup.isLegal text = (Markup.isLegal (rendering.timestamp now) && history.isLegal) := by
  rw [convert, laid] at converted
  exact isLegal_render converted

end History

namespace Directive

/-- The texts that a directive quotes. -/
def quotations : Directive → List String
  | .commit _ id tag => id.toList ++ tag.toList
  | _ => []

/-- A text with a legal fallback is legal exactly if it is, once it was given. -/
theorem isLegal_textOr_iff
    {fallback : String}
    (legal : Markup.isLegal fallback = true)
    (text : Option String) :
    Markup.isLegal (textOr fallback text) = true ↔ ∀ given ∈ text, Markup.isLegal given = true := by
  cases text with
  | none =>
      simp [textOr, legal]
  | some given =>
      by_cases empty : given = ""
      · have emptyLegal : Markup.isLegal "" = true := by decide
        simp [textOr, empty, legal, emptyLegal]
      · simp [textOr, empty]

/-- The caption of a node is legal exactly if what its directive quotes is. -/
theorem isLegal_caption_iff
    {directive : Directive}
    {caption : Caption}
    (captioned : directive.caption? = some caption) :
    (Markup.isLegal caption.id = true ∧ Markup.isLegal caption.label = true) ↔
      ∀ text ∈ directive.quotations, Markup.isLegal text = true := by
  cases directive with
  | commit index id tag =>
      cases captioned
      have numbered : Markup.isLegal ("c" ++ integerText index) = true := by
        rw [isLegal_append, isLegal_integerText]
        decide
      have named := isLegal_textOr_iff numbered id
      simp only [quotations, List.forall_mem_append, Option.mem_toList]
      rw [named]
      exact and_congr_right fun legalId => isLegal_textOr_iff (named.mpr legalId) tag
  | merge index name =>
      cases captioned
      have numbered : Markup.isLegal ("merge-" ++ integerText index) = true := by
        rw [isLegal_append, isLegal_integerText]
        decide
      have label : Markup.isLegal "Merge" = true := by decide
      simp [quotations, numbered, label]
  | _ =>
      simp [caption?] at captioned

/-- A directive that draws nothing quotes nothing. -/
theorem quotations_eq_nil
    {directive : Directive}
    (uncaptioned : directive.caption? = none) :
    directive.quotations = [] := by
  cases directive with
  | commit index id tag =>
      simp [caption?] at uncaptioned
  | _ =>
      rfl

/-- Names are legal. -/
theorem isLegal_of_isName
    {name : String}
    (isName : IsName name) :
    Markup.isLegal name = true := by
  have legal : nameAlphabet.all isLegalCharacter := by
    decide +kernel
  rw [Markup.isLegal, List.all_eq_true]
  exact fun character member =>
    List.all_eq_true.mp legal character (isName.2 character member)

end Directive

namespace Script

/-- The captions of a history are legal exactly if what the script quotes is. -/
theorem isLegal_captions_iff
    (settings : Settings)
    (script : Script) :
    (∀ commit ∈ (script.history settings).commits,
        Markup.isLegal commit.id = true ∧ Markup.isLegal commit.label = true) ↔
      ∀ directive ∈ script.directives,
        ∀ text ∈ directive.quotations, Markup.isLegal text = true := by
  have captions := map_caption_commits settings script
  constructor
  · intro legal directive member
    cases captioned : directive.caption? with
    | none =>
        rw [Directive.quotations_eq_nil captioned]
        exact nofun
    | some caption =>
        have listed : caption ∈ (script.history settings).commits.map CommitNode.caption :=
          captions ▸ List.mem_filterMap.mpr ⟨directive, member, captioned⟩
        obtain ⟨commit, isCommit, rfl⟩ := List.mem_map.mp listed
        exact (Directive.isLegal_caption_iff captioned).mp (legal commit isCommit)
  · intro legal commit member
    have listed : commit.caption ∈ script.directives.filterMap Directive.caption? :=
      captions ▸ List.mem_map_of_mem member
    obtain ⟨directive, isDirective, captioned⟩ := List.mem_filterMap.mp listed
    exact (Directive.isLegal_caption_iff captioned).mpr (legal directive isDirective)

/-- With legal colors and names, a history is legal exactly if what the script quotes is. -/
theorem isLegal_history_iff
    {settings : Settings}
    {script : Script}
    (inks : ∀ color ∈ settings.palette.colors, Markup.isLegal color = true)
    (names :
      ∀ directive ∈ script.directives,
        ∀ name ∈ directive.declared?, Markup.isLegal name = true) :
    (script.history settings).isLegal = true ↔
      ∀ directive ∈ script.directives,
        ∀ text ∈ directive.quotations, Markup.isLegal text = true := by
  have consistent := Layout.consistent_replay settings script.directives
  have inked := Layout.inked_replay settings script.directives
  rw [← isLegal_captions_iff settings script]
  simp only [History.isLegal, Bool.and_eq_true, List.all_eq_true]
  constructor
  · intro legal commit member
    have legalCommit := legal.2 commit member
    simp only [CommitNode.isLegal, Bool.and_eq_true] at legalCommit
    exact legalCommit.1
  · intro captions
    refine ⟨⟨?branches, ?edges⟩, ?commits⟩
    case branches =>
      intro branch member
      have known : branch.name ∈ (Layout.replay settings script.directives).table.names :=
        List.mem_map_of_mem member
      rw [Branch.isLegal, inks _ (inked.of_mem member), Bool.and_true]
      rcases Layout.mem_names_replay_iff.mp known with isMain | ⟨directive, isDirective, declares⟩
      · rw [isMain]
        decide
      · exact names directive isDirective _ declares
    case edges =>
      intro edge member
      have ends := consistent.edgesKnown edge member
      obtain ⟨source, isSource, sourceId⟩ := List.mem_map.mp ends.1
      obtain ⟨target, isTarget, targetId⟩ := List.mem_map.mp ends.2
      rw [Edge.isLegal, ← sourceId, ← targetId, (captions source isSource).1,
        (captions target isTarget).1, inks _ (inked.edges edge member)]
      rfl
    case commits =>
      intro commit member
      rw [CommitNode.isLegal, (captions commit member).1, (captions commit member).2,
        inks _ (inked.commits commit member)]
      rfl

/-- Whatever names a source declares are legal. -/
theorem isLegal_of_ofSource
    {source : String}
    {script : Script}
    (read : ofSource source = .ok script) :
    ∀ directive ∈ script.directives,
      ∀ name ∈ directive.declared?, Markup.isLegal name = true := by
  obtain ⟨-, rfl⟩ := ofSource_eq_ok_iff.mp read
  intro directive member name declares
  exact Directive.isLegal_of_isName (isName_of_declared? member declares)

end Script

/--
A document is legal exactly if everything that the commits of its source quote is.

What else a source says, and how large or how far apart things are drawn, makes no difference.
-/
theorem document_is_legal_iff_quotations_are
    {settings : Settings}
    {rendering : Rendering}
    {now source text : String}
    {script : Script}
    (inks : ∀ color ∈ settings.palette.colors, isLegal color = true)
    (clock : isLegal (rendering.timestamp now) = true)
    (read : Script.ofSource source = .ok script)
    (converted : convert settings rendering now source = .ok text) :
    text.toList.all isLegalCharacter = true ↔
      ∀ directive ∈ script.directives,
        ∀ quoted ∈ directive.quotations, quoted.toList.all isLegalCharacter = true := by
  have laid : layoutSource settings source = .ok (script.history settings) := by
    rw [layoutSource, read]
    rfl
  have document := History.isLegal_convert laid converted
  rw [clock, Bool.true_and] at document
  have written := Script.isLegal_history_iff inks (Script.isLegal_of_ofSource read)
  rw [← document] at written
  exact written

/-- Quoted markup is escaped, so it does no harm. -/
theorem document_is_legal_for_quoted_markup :
    ∃ text,
      convert {} {} "noon" "commit id:\"a\" tag:\"<&\"" = .ok text ∧
        text.toList.all isLegalCharacter = true := by
  have read : Script.ofSource "commit id:\"a\" tag:\"<&\"" =
      .ok ⟨[.commit 0 (some "a") (some "<&")]⟩ := by
    rfl
  obtain ⟨text, converted⟩ :
      ∃ text, convert {} {} "noon" "commit id:\"a\" tag:\"<&\"" = .ok text :=
    exists_eq_ok (by decide +kernel)
  have legal := document_is_legal_iff_quotations_are (by decide) (by decide) read converted
  exact ⟨text, converted, legal.mpr (by decide)⟩

/-- A quoted control character is written as it is, and no document may hold it. -/
theorem document_is_illegal_for_a_quoted_control :
    ∃ text,
      convert {} {} "noon" "commit id:\"\x01\"" = .ok text ∧
        ∃ character ∈ text.toList, isLegalCharacter character = false := by
  have laid : layoutSource {} "commit id:\"\x01\"" = .ok {
      branches := [{ name := "main", laneIndex := 0, color := "#1E90FF", tip := some "\x01" }]
      commits := [
        { id := "\x01", label := "\x01", x := .int 0, y := .int 0, branch := "main",
          color := "#1E90FF", isMerge := false }]
      edges := [] } := by
    rfl
  obtain ⟨text, converted⟩ : ∃ text, convert {} {} "noon" "commit id:\"\x01\"" = .ok text :=
    exists_eq_ok (by decide +kernel)
  have illegal : isLegal text = false := by
    rw [History.isLegal_convert laid converted]
    decide
  exact ⟨text, converted, by simpa [isLegal] using illegal⟩

end GitLanes
