import GitLanes.Proofs.Drawing.Cells
import GitLanes.Proofs.Number.Numerals
import GitLanes.Proofs.Number.Rounding

namespace GitLanes

/-!
# Geometry of integers

Every number of a drawing passes through a double, but the double is only asked
whether it exists. A drawing on whole coordinates is therefore refused exactly if
one of its integers is too large to be rounded, and all coordinates that it is
drawn with are exact.
-/

/-- The double that an integer was to become does not exist. -/
def Fault.IsOverflow (fault : Fault) : Prop :=
  fault = .integerTooLarge ∨ fault = .quotientTooLarge

/-- An attempt overflows under a condition, and succeeds otherwise. -/
structure OverflowsIff {α : Type} (attempt : Except Fault α) (condition : Prop) : Prop where
  overflows : condition → ∃ fault : Fault, fault.IsOverflow ∧ attempt = .error fault
  succeeds : ¬ condition → ∃ value, attempt = .ok value

namespace OverflowsIff

variable {α β : Type}

theorem pure (value : α) : OverflowsIff (pure value) False where
  overflows := False.elim
  succeeds := fun _ => ⟨value, rfl⟩

/-- A bound refuses exactly what lies beyond it. -/
theorem ite
    {small : Prop}
    [Decidable small]
    {fault : Fault}
    (value : α)
    (isOverflow : fault.IsOverflow) :
    OverflowsIff (if small then .ok value else .error fault) (¬ small) where
  overflows := fun large => ⟨fault, isOverflow, if_neg large⟩
  succeeds := fun notLarge => ⟨value, if_pos (not_not.mp notLarge)⟩

theorem congr
    {attempt : Except Fault α}
    {condition other : Prop}
    (overflowsIff : OverflowsIff attempt condition)
    (same : condition ↔ other) :
    OverflowsIff attempt other :=
  propext same ▸ overflowsIff

/-- The first attempt to overflow is the one that counts. -/
theorem bind
    {first : Except Fault α}
    {next : α → Except Fault β}
    {firstCondition nextCondition : Prop}
    (firstOverflows : OverflowsIff first firstCondition)
    (nextOverflows : ∀ value, OverflowsIff (next value) nextCondition) :
    OverflowsIff (first >>= next) (firstCondition ∨ nextCondition) where
  overflows := by
    intro condition
    by_cases inFirst : firstCondition
    · obtain ⟨fault, isOverflow, rfl⟩ := firstOverflows.overflows inFirst
      exact ⟨fault, isOverflow, rfl⟩
    · obtain ⟨value, rfl⟩ := firstOverflows.succeeds inFirst
      exact (nextOverflows value).overflows (condition.resolve_left inFirst)
  succeeds := by
    intro neither
    rw [not_or] at neither
    obtain ⟨value, rfl⟩ := firstOverflows.succeeds neither.1
    exact (nextOverflows value).succeeds neither.2

/-- What is done with a value afterwards cannot overflow. -/
theorem map
    {attempt : Except Fault α}
    {condition : Prop}
    (overflowsIff : OverflowsIff attempt condition)
    (onValue : α → β) :
    OverflowsIff (attempt.map onValue) condition where
  overflows := by
    intro holds
    obtain ⟨fault, isOverflow, rfl⟩ := overflowsIff.overflows holds
    exact ⟨fault, isOverflow, rfl⟩
  succeeds := by
    intro fails
    obtain ⟨value, rfl⟩ := overflowsIff.succeeds fails
    exact ⟨onValue value, rfl⟩

/-- Attempts for all items overflow as soon as one of them does. -/
theorem mapM
    {step : α → Except Fault β}
    {condition : α → Prop}
    (each : ∀ item, OverflowsIff (step item) (condition item))
    (items : List α) :
    OverflowsIff (items.mapM step) (∃ item ∈ items, condition item) := by
  induction items with
  | nil =>
      exact (pure []).congr (by simp)
  | cons item rest inductionHypothesis =>
      have others (value : β) :=
        inductionHypothesis.bind fun values => OverflowsIff.pure (value :: values)
      rw [List.mapM_cons]
      exact ((each item).bind others).congr (by simp)

/-- An overflow is told exactly under its condition. -/
theorem error_iff
    {attempt : Except Fault α}
    {condition : Prop}
    (overflowsIff : OverflowsIff attempt condition) :
    (∃ fault : Fault, fault.IsOverflow ∧ attempt = .error fault) ↔ condition := by
  refine ⟨?refused, overflowsIff.overflows⟩
  rintro ⟨fault, -, rfl⟩
  by_contra fails
  obtain ⟨value, succeeded⟩ := overflowsIff.succeeds fails
  contradiction

/-- Nothing but an overflow is ever told. -/
theorem isOverflow_of_error
    {attempt : Except Fault α}
    {condition : Prop}
    (overflowsIff : OverflowsIff attempt condition)
    {fault : Fault}
    (refused : attempt = .error fault) :
    fault.IsOverflow := by
  by_cases holds : condition
  · obtain ⟨other, isOverflow, same⟩ := overflowsIff.overflows holds
    exact Except.error.inj (same.symm.trans refused) ▸ isOverflow
  · obtain ⟨value, succeeded⟩ := overflowsIff.succeeds holds
    rw [succeeded] at refused
    contradiction

end OverflowsIff

namespace Quantity

/-- A quantity is an integer to which no finite double is nearest. -/
def IsTooLarge (quantity : Quantity) : Prop :=
  ∃ value : Int, quantity = .int value ∧ Double.roundingLimit ≤ value.natAbs

theorem int_isTooLarge_iff {value : Int} :
    (Quantity.int value).IsTooLarge ↔ Double.roundingLimit ≤ value.natAbs := by
  simp [IsTooLarge]

theorem isTooLarge_or_iff {first second : Quantity} :
    first.IsTooLarge ∨ second.IsTooLarge ↔
      ∃ value : Int,
        (first = .int value ∨ second = .int value) ∧ Double.roundingLimit ≤ value.natAbs := by
  simp only [IsTooLarge, or_and_right, exists_or]

/-- An integer is refused as a double exactly from the limit of rounding on. -/
theorem doubleOfInt_overflowsIff (value : Int) :
    OverflowsIff (doubleOfInt value) (Double.roundingLimit ≤ value.natAbs) := by
  rw [doubleOfInt_eq_ite, ← Nat.not_lt]
  exact .ite _ (Or.inl rfl)

theorem half_overflowsIff (value : Int) :
    OverflowsIff (Quantity.int value).half (2 * Double.roundingLimit ≤ value.natAbs) := by
  rw [half_int_eq_ite, ← Nat.not_lt]
  exact .ite _ (Or.inr rfl)

/-- A coordinate is refused exactly if its quantity is too large. -/
theorem coordinateText_overflowsIff (quantity : Quantity) :
    OverflowsIff quantity.coordinateText quantity.IsTooLarge := by
  cases quantity with
  | int value =>
      have overflows := ((doubleOfInt_overflowsIff value).map fun _ => integerNumeral value).map
        String.ofList
      exact overflows.congr int_isTooLarge_iff.symm
  | double value =>
      exact (OverflowsIff.pure _).congr (by simp [IsTooLarge])

end Quantity

/-- The place and the size of a cell, as they are written. -/
structure Extent where
  x : String
  y : String
  width : String
  height : String
  deriving Repr, DecidableEq

/-- The place and the size that a cell is given. -/
def Element.extent? (cell : Element) : Option Extent := do
  let geometry ← cell.children.head?
  let x ← geometry.attribute? "x"
  let y ← geometry.attribute? "y"
  let width ← geometry.attribute? "width"
  let height ← geometry.attribute? "height"
  return ⟨x, y, width, height⟩

/-- The extent of a cell is what its geometry says. -/
theorem Element.extent?_cell
    (attributes : List (String × String))
    (x y width height : String) :
    (Element.cell attributes [.geometry x y width height]).extent? =
      some ⟨x, y, width, height⟩ :=
  rfl

/-- A commit at integers is drawn where it is, in the size of the rendering. -/
theorem CommitNode.extent?_of_cell
    {rendering : Rendering}
    {nodeSize x y : Int}
    {commit : CommitNode}
    {cell : Element}
    (sized : rendering.nodeSize = .int nodeSize)
    (atX : commit.x = .int x)
    (atY : commit.y = .int y)
    (drawn : commit.cell rendering = .ok cell) :
    cell.extent? =
      some ⟨toString x, toString y, toString nodeSize, toString nodeSize⟩ := by
  obtain ⟨size, isSize, writtenX, isX, writtenY, isY, rfl⟩ := CommitNode.cell_eq_ok_iff.mp drawn
  rw [sized] at isSize
  rw [atX] at isX
  rw [atY] at isY
  rw [Element.extent?_cell, Quantity.coordinateText_int isSize, Quantity.coordinateText_int isX,
    Quantity.coordinateText_int isY]
  simp only [integerText_eq_toString]

/-- The label of a branch is refused exactly if half a commit or its lane is. -/
theorem Branch.cell_overflowsIff
    {rendering : Rendering}
    {nodeSize : Int}
    (sized : rendering.nodeSize = .int nodeSize)
    (spacingY : Int)
    (branch : Branch) :
    OverflowsIff (branch.cell rendering (.int spacingY))
      (2 * Double.roundingLimit ≤ nodeSize.natAbs ∨
        Double.roundingLimit ≤ (branch.laneIndex * spacingY).natAbs) := by
  have placed :
      OverflowsIff (branch.labelY rendering (.int spacingY))
        (2 * Double.roundingLimit ≤ nodeSize.natAbs ∨
          Double.roundingLimit ≤ (branch.laneIndex * spacingY).natAbs) := by
    have atLane (halfNode : Double) :=
      (Quantity.doubleOfInt_overflowsIff (branch.laneIndex * spacingY)).bind fun top =>
        OverflowsIff.pure ((top.add halfNode).add (Double.halfOfInt (-labelHeight)))
    have raised := (Quantity.half_overflowsIff nodeSize).bind atLane
    rw [or_false, ← sized] at raised
    exact raised
  exact (placed.bind fun y => OverflowsIff.pure _).congr (by simp)

/-- A commit is refused exactly if its size or one of its coordinates is too large. -/
theorem CommitNode.cell_overflowsIff
    (rendering : Rendering)
    (commit : CommitNode) :
    OverflowsIff (commit.cell rendering)
      (rendering.nodeSize.IsTooLarge ∨ commit.x.IsTooLarge ∨ commit.y.IsTooLarge) := by
  have y (size x : String) :=
    commit.y.coordinateText_overflowsIff.bind fun y => OverflowsIff.pure
      (Element.cell
        [("id", commit.id), ("value", commit.label), ("style", commit.style),
          ("parent", "1"), ("vertex", "1")]
        [.geometry x y size size])
  have x (size : String) := commit.x.coordinateText_overflowsIff.bind (y size)
  exact (rendering.nodeSize.coordinateText_overflowsIff.bind x).congr (by simp)

theorem exists_mem_or_iff
    {α : Type}
    {items : List α}
    {shared : Prop}
    {own : α → Prop} :
    (∃ item ∈ items, shared ∨ own item) ↔ items ≠ [] ∧ (shared ∨ ∃ item ∈ items, own item) := by
  constructor
  · rintro ⟨item, member, isShared | isOwn⟩
    · exact ⟨List.ne_nil_of_mem member, Or.inl isShared⟩
    · exact ⟨List.ne_nil_of_mem member, Or.inr ⟨item, member, isOwn⟩⟩
  · rintro ⟨nonempty, isShared | ⟨item, member, isOwn⟩⟩
    · obtain ⟨item, member⟩ := List.exists_mem_of_ne_nil items nonempty
      exact ⟨item, member, Or.inl isShared⟩
    · exact ⟨item, member, Or.inr isOwn⟩

namespace History

/-- The cells of a history are refused exactly if the cell of a branch or a commit is. -/
theorem cells_overflowsIff
    {rendering : Rendering}
    {nodeSize : Int}
    (sized : rendering.nodeSize = .int nodeSize)
    (spacingY : Int)
    (history : History) :
    OverflowsIff (history.cells rendering (.int spacingY))
      ((∃ branch ∈ history.branches,
          2 * Double.roundingLimit ≤ nodeSize.natAbs ∨
            Double.roundingLimit ≤ (branch.laneIndex * spacingY).natAbs) ∨
        ∃ commit ∈ history.commits,
          rendering.nodeSize.IsTooLarge ∨ commit.x.IsTooLarge ∨ commit.y.IsTooLarge) := by
  have vertices (labels : List Element) :=
    (OverflowsIff.mapM (CommitNode.cell_overflowsIff rendering) history.commits).bind
      fun vertices => OverflowsIff.pure
        (.cell [("id", "0")] [] :: .cell [("id", "1"), ("parent", "0")] [] ::
          (labels ++ history.edges.mapIdx Edge.cell ++ vertices))
  have labels := OverflowsIff.mapM (Branch.cell_overflowsIff sized spacingY) history.branches
  exact (labels.bind vertices).congr (by rw [or_false])

/-- A document is refused exactly if an integer in one of its cells is too large. -/
theorem render_overflowsIff
    {rendering : Rendering}
    {nodeSize : Int}
    (sized : rendering.nodeSize = .int nodeSize)
    (spacingY : Int)
    (now : String)
    (history : History) :
    OverflowsIff (history.render rendering (.int spacingY) now)
      ((∃ branch ∈ history.branches,
          2 * Double.roundingLimit ≤ nodeSize.natAbs ∨
            Double.roundingLimit ≤ (branch.laneIndex * spacingY).natAbs) ∨
        ∃ commit ∈ history.commits,
          rendering.nodeSize.IsTooLarge ∨ commit.x.IsTooLarge ∨ commit.y.IsTooLarge) :=
  ((history.cells_overflowsIff sized spacingY).map _).map _

/--
Integer coordinates are exact or refused.

With a size, a distance between lanes and coordinates that are integers, a drawing is refused
for an overflow exactly if a branch is labelled and the size is at least twice the limit or the
place of a lane at least the limit, or if a commit is drawn and the size or a coordinate of a
commit is at least the limit; and it is refused for nothing else. In what is drawn, the
coordinates and the size of every commit are the decimal digits of these integers.
-/
theorem geometry_is_exact_or_refused
    (nodeSize spacingY : Int)
    (modified : Option String)
    (pretty : Bool)
    (now : String)
    (history : History) :
    let limit := powerOfTwo 1024 - powerOfTwo 970
    let rendered :=
      history.render { nodeSize := .int nodeSize, modified, pretty } (.int spacingY) now
    ((∃ fault : Fault, fault.IsOverflow ∧ rendered = .error fault) ↔
        (history.branches ≠ [] ∧
            (2 * limit ≤ nodeSize.natAbs ∨
              ∃ branch ∈ history.branches, limit ≤ (branch.laneIndex * spacingY).natAbs)) ∨
          (history.commits ≠ [] ∧
            (limit ≤ nodeSize.natAbs ∨
              ∃ commit ∈ history.commits, ∃ value : Int,
                (commit.x = .int value ∨ commit.y = .int value) ∧ limit ≤ value.natAbs))) ∧
      (∀ fault : Fault, rendered = .error fault → fault.IsOverflow) ∧
        ∀ text, rendered = .ok text →
          ∃ labels lines vertices,
            cellsOf? text =
                some (.cell [("id", "0")] [] :: .cell [("id", "1"), ("parent", "0")] [] ::
                  (labels ++ lines ++ vertices)) ∧
              List.Forall₂
                (fun (commit : CommitNode) vertex =>
                  vertex.cellText = commit.cellText ∧
                    ∀ x y : Int,
                      commit.x = .int x →
                        commit.y = .int y →
                          vertex.extent? =
                            some ⟨toString x, toString y, toString nodeSize, toString nodeSize⟩)
                history.commits vertices := by
  intro limit rendered
  have overflowsIff : OverflowsIff rendered _ := render_overflowsIff rfl spacingY now history
  refine ⟨?condition, ?onlyOverflows, ?exactly⟩
  case condition =>
    rw [overflowsIff.error_iff, exists_mem_or_iff, exists_mem_or_iff]
    simp only [Quantity.int_isTooLarge_iff, Quantity.isTooLarge_or_iff]
    rfl
  case onlyOverflows =>
    exact fun fault => overflowsIff.isOverflow_of_error
  case exactly =>
    intro text succeeded
    obtain ⟨cells, drawn, read⟩ := cellsOf?_render succeeded
    obtain ⟨labels, -, vertices, committed, rfl⟩ := cells_eq_ok_iff.mp drawn
    refine ⟨labels, history.edges.mapIdx Edge.cell, vertices, read, committed.imp ?_⟩
    intro commit vertex drawnCell
    exact ⟨(CommitNode.bears_of_cell drawnCell).texts,
      fun x y atX atY => CommitNode.extent?_of_cell rfl atX atY drawnCell⟩

end History

end GitLanes
