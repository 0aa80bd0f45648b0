import GitLanes.Conversion
import GitLanes.Proofs.Drawing.Geometry
import GitLanes.Proofs.Layout.Commits
import GitLanes.Proofs.Number.Decimals

namespace GitLanes

/-!
# Labels on their lanes

The label of a branch is placed by the drawing, from the lane of the branch and
the size of commits, by arithmetic on doubles. The commits of the branch were
placed by the layout, with exact integers. As long as both stay small enough,
nothing is rounded, and labels stand exactly beside their commits.
-/

/-- The place of a label from the top, counted in halves. -/
def Branch.labelHalves
    (branch : Branch)
    (nodeSize spacingY : Int) :
    Int :=
  2 * (branch.laneIndex * spacingY) + nodeSize - labelHeight

/-- The distance of a cell from the top, as the number that is written. -/
def Element.top? (cell : Element) : Option ℚ :=
  cell.extent?.bind fun extent => rationalOf? extent.y.toList

/--
A cell is the label of a branch and stands beside the middle of its lane.

It starts half a commit below the top of the lane, less half its own height. This number is written
exactly: without a point if half a commit is whole, and with the single decimal 5 if not.
-/
structure Branch.IsLabelledBy
    (branch : Branch)
    (nodeSize spacingY : Int)
    (label : Element) : Prop where
  texts : label.cellText = branch.cellText
  top : label.top? = some (branch.laneIndex * spacingY + nodeSize / 2 - 10 : ℚ)
  whole :
    nodeSize % 2 = 0 →
      label.extent? =
        some ⟨"-120", toString (branch.laneIndex * spacingY + nodeSize / 2 - 10), "100", "20"⟩
  half :
    nodeSize % 2 = 1 →
      ∃ sign ∈ ["", "-"], ∃ digits : Nat,
        label.extent? = some ⟨"-120", sign ++ toString digits ++ ".5", "100", "20"⟩

section

variable
  {rendering : Rendering}
  {branch : Branch}
  {nodeSize spacingY : Int}
  (sized : rendering.nodeSize = .int nodeSize)
  (smallNode : nodeSize.natAbs ≤ powerOfTwo 51)
  (smallLane : (branch.laneIndex * spacingY).natAbs ≤ powerOfTwo 51)

include smallNode smallLane

/-- The height of a label in halves is small enough to be exact. -/
theorem Branch.labelHalves_lt :
    (branch.labelHalves nodeSize spacingY).natAbs < powerOfTwo 53 := by
  have limit : powerOfTwo 51 = 2251799813685248 := rfl
  have range : powerOfTwo 53 = 9007199254740992 := rfl
  simp only [labelHalves, labelHeight]
  omega

include sized

/-- The place of a label is computed without rounding. -/
theorem Branch.labelY_eq_ofHalves
    {y : Double}
    (placed : branch.labelY rendering (.int spacingY) = .ok y) :
    y = Double.ofHalves (branch.labelHalves nodeSize spacingY) := by
  have limit : powerOfTwo 51 = 2251799813685248 := rfl
  have range : powerOfTwo 53 = 9007199254740992 := rfl
  have top : Double.ofInt (branch.laneIndex * spacingY) =
      Double.ofHalves (2 * (branch.laneIndex * spacingY)) :=
    Double.ofInt_eq_ofHalves (by omega)
  have halfNode : Double.halfOfInt nodeSize = Double.ofHalves nodeSize :=
    Double.halfOfInt_eq_ofHalves (by omega)
  have halfLabel : Double.halfOfInt (-labelHeight) = Double.ofHalves (-labelHeight) :=
    Double.halfOfInt_eq_ofHalves (by decide)
  simp only [labelY, sized, Quantity.scale, Quantity.toDouble, bind_eq_ok_iff, pure_eq_ok_iff,
    Except.ok.injEq, exists_eq_left'] at placed
  obtain ⟨half, isHalf, lane, isLane, rfl⟩ := placed
  rw [Quantity.doubleOfInt_eq_ite] at isLane
  rw [Quantity.half_int_eq_ite] at isHalf
  rw [eq_of_ite_eq_ok isLane, eq_of_ite_eq_ok isHalf, top, halfNode, halfLabel,
    Double.ofHalves_add (by omega), Double.ofHalves_add]
  · rfl
  · exact labelHalves_lt smallNode smallLane

/-- The cell that is drawn for a branch is a label of it, beside its lane. -/
theorem Branch.isLabelledBy_of_cell
    {label : Element}
    (drawn : branch.cell rendering (.int spacingY) = .ok label) :
    branch.IsLabelledBy nodeSize spacingY label := by
  have texts := (Branch.bears_of_cell drawn).texts
  obtain ⟨y, placed, rfl⟩ := Branch.cell_eq_ok_iff.mp drawn
  obtain rfl := Branch.labelY_eq_ofHalves sized smallNode smallLane placed
  have inRange := Branch.labelHalves_lt smallNode smallLane
  refine ⟨texts, ?top, fun isEven => ?whole, fun isOdd => ?half⟩
  case top =>
    rw [Element.top?, Element.extent?_cell, Option.bind_some, String.toList_ofList,
      rationalOf?_coordinate_ofHalves inRange, Branch.labelHalves, labelHeight]
    push_cast
    congr 1
    ring
  case whole =>
    have halves :
        branch.labelHalves nodeSize spacingY =
          2 * (branch.laneIndex * spacingY + nodeSize / 2 - 10) := by
      rw [Branch.labelHalves, labelHeight]
      omega
    rw [Element.extent?_cell, halves, Double.coordinate_ofHalves_even, ← integerText,
      integerText_eq_toString]
  case half =>
    have odd : branch.labelHalves nodeSize spacingY % 2 = 1 := by
      rw [Branch.labelHalves, labelHeight]
      omega
    refine ⟨if branch.labelHalves nodeSize spacingY < 0 then "-" else "", ?sign,
      (branch.labelHalves nodeSize spacingY).natAbs / 2, ?text⟩
    case sign =>
      split_ifs <;> decide
    case text =>
      rw [Element.extent?_cell, Double.coordinate_ofHalves_odd inRange odd, String.ofList_append,
        String.ofList_append, ← Nat.toString_eq_ofList_toDigits, apply_ite String.ofList,
        String.append_assoc]

end

/-- A commit belongs to the one branch of its name, and lies on the lane of this branch. -/
theorem Script.owners_of_commit
    {settings : Settings}
    {script : Script}
    {commit : CommitNode}
    (member : commit ∈ (script.history settings).commits) :
    (∃ branch ∈ (script.history settings).branches, branch.name = commit.branch) ∧
      ∀ branch ∈ (script.history settings).branches,
        branch.name = commit.branch → commit.y = settings.spacingY.times branch.laneIndex := by
  obtain ⟨position, inRange, found⟩ := List.getElem_of_mem member
  obtain ⟨owner, isOwner, onLane, -⟩ :=
    exists_branch_of_commit (List.getElem?_eq_some_iff.mpr ⟨inRange, found⟩)
  have sameName :=
    List.find?_some (p := fun branch : Branch => branch.name == commit.branch) isOwner
  refine ⟨⟨owner, List.mem_of_find?_eq_some isOwner, beq_iff_eq.mp sameName⟩, ?_⟩
  intro branch listed named
  have isBranch := branch?_eq_some listed
  rw [named, isOwner] at isBranch
  rw [onLane, Option.some.inj isBranch]

/-- The place that is written of a commit is the exact one. -/
theorem CommitNode.top?_of_cell
    {rendering : Rendering}
    {commit : CommitNode}
    {y : Int}
    {vertex : Element}
    (atY : commit.y = .int y)
    (drawn : commit.cell rendering = .ok vertex) :
    vertex.top? = some (y : ℚ) := by
  obtain ⟨size, -, x, -, writtenY, isY, rfl⟩ := CommitNode.cell_eq_ok_iff.mp drawn
  rw [atY] at isY
  rw [Element.top?, Element.extent?_cell, Option.bind_some, Quantity.coordinateText_int isY,
    toList_integerText, rationalOf?_integerNumeral]

/--
Labels sit on their lanes.

If neither the size of commits nor the place of a lane is beyond 2^51, then a source is drawn with
one label a branch, which stands exactly beside its lane; and every commit belongs to a branch, the
middle of whose label is as far from the top as the middle of the commit.
-/
theorem labels_sit_on_their_lanes
    {spacingX spacingY nodeSize : Int}
    {palette : Palette}
    {modified : Option String}
    {pretty : Bool}
    {now source text : String}
    {history : History}
    (laid : layoutSource ⟨.int spacingX, .int spacingY, palette⟩ source = .ok history)
    (smallNode : nodeSize.natAbs ≤ powerOfTwo 51)
    (smallLanes :
      ∀ branch ∈ history.branches, (branch.laneIndex * spacingY).natAbs ≤ powerOfTwo 51)
    (converted :
      convert ⟨.int spacingX, .int spacingY, palette⟩
        { nodeSize := .int nodeSize, modified, pretty } now source = .ok text) :
    ∃ labels vertices,
      cellsOf? text =
          some (.cell [("id", "0")] [] :: .cell [("id", "1"), ("parent", "0")] [] ::
            (labels ++ history.edges.mapIdx Edge.cell ++ vertices)) ∧
        List.Forall₂ (fun (branch : Branch) label => branch.IsLabelledBy nodeSize spacingY label)
          history.branches labels ∧
        List.Forall₂
          (fun (commit : CommitNode) vertex =>
            vertex.cellText = commit.cellText ∧
              (∃ branch ∈ history.branches, branch.name = commit.branch) ∧
              ∀ owner ∈ history.branches.zip labels,
                owner.1.name = commit.branch →
                  ∃ labelTop commitTop : ℚ,
                    owner.2.top? = some labelTop ∧
                      vertex.top? = some commitTop ∧
                        labelTop + 10 = commitTop + nodeSize / 2)
          history.commits vertices := by
  rw [convert, laid] at converted
  obtain ⟨cells, drawn, read⟩ := History.cellsOf?_render converted
  obtain ⟨labels, labelled, vertices, committed, rfl⟩ := History.cells_eq_ok_iff.mp drawn
  have beside :
      List.Forall₂ (fun (branch : Branch) label => branch.IsLabelledBy nodeSize spacingY label)
        history.branches labels :=
    ((List.forall₂_and_left _ _).mpr ⟨smallLanes, labelled⟩).imp
      fun _ _ ⟨smallLane, drawnLabel⟩ =>
        Branch.isLabelledBy_of_cell rfl smallNode smallLane drawnLabel
  have onLanes :
      ∀ commit ∈ history.commits,
        (∃ branch ∈ history.branches, branch.name = commit.branch) ∧
          ∀ branch ∈ history.branches,
            branch.name = commit.branch → commit.y = .int (branch.laneIndex * spacingY) := by
    obtain ⟨script, -, rfl⟩ := map_eq_ok_iff.mp laid
    exact fun commit member => Script.owners_of_commit member
  refine ⟨labels, vertices, read, beside,
    ((List.forall₂_and_left _ _).mpr ⟨onLanes, committed⟩).imp ?_⟩
  rintro commit vertex ⟨⟨owned, onLane⟩, drawnVertex⟩
  refine ⟨(CommitNode.bears_of_cell drawnVertex).texts, owned, ?centred⟩
  rintro ⟨owner, label⟩ paired sameName
  have atLane := onLane owner (List.of_mem_zip paired).1 sameName
  refine ⟨_, _, (List.forall₂_zip beside paired).top,
    CommitNode.top?_of_cell atLane drawnVertex, ?_⟩
  push_cast
  ring

/-- With lanes from bottom to top and commits of odd size, labels stand between whole numbers. -/
theorem labels_sit_on_rising_lanes :
    ∃ history text labels vertices,
      layoutSource ⟨.int 150, .int (-30), .standard⟩ "commit\nbranch dev\ncommit" = .ok history ∧
        convert ⟨.int 150, .int (-30), .standard⟩ { nodeSize := .int 51 } "noon"
            "commit\nbranch dev\ncommit" = .ok text ∧
          cellsOf? text =
              some (.cell [("id", "0")] [] :: .cell [("id", "1"), ("parent", "0")] [] ::
                (labels ++ history.edges.mapIdx Edge.cell ++ vertices)) ∧
            labels.map Element.top? = [some (31 / 2), some (-29 / 2)] := by
  have laid :
      layoutSource ⟨.int 150, .int (-30), .standard⟩ "commit\nbranch dev\ncommit" =
        .ok (Script.history ⟨.int 150, .int (-30), .standard⟩
          ⟨[.commit 0 none none, .branch 1 "dev", .commit 2 none none]⟩) := by
    rfl
  obtain ⟨text, converted⟩ :
      ∃ text,
        convert ⟨.int 150, .int (-30), .standard⟩ { nodeSize := .int 51 } "noon"
          "commit\nbranch dev\ncommit" = .ok text :=
    exists_eq_ok (by decide +kernel)
  obtain ⟨labels, vertices, read, beside, -⟩ :=
    labels_sit_on_their_lanes laid (by decide) (by decide) converted
  refine ⟨_, text, labels, vertices, laid, converted, read, ?_⟩
  rw [map_eq_map_of_forall₂ beside fun _ _ _ isLabel => isLabel.top]
  change [some (((0 : Int) : ℚ) * ((-30 : Int) : ℚ) + ((51 : Int) : ℚ) / 2 - 10),
    some (((1 : Int) : ℚ) * ((-30 : Int) : ℚ) + ((51 : Int) : ℚ) / 2 - 10)] = _
  norm_num

end GitLanes
