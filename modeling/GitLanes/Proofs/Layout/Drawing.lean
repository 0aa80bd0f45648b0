import GitLanes.Layout.Progress
import GitLanes.Proofs.Layout.Table

namespace GitLanes

/-!
# What each directive draws

A directive does one of four things to a layout: it draws a commit on the
current branch, it creates a branch, it makes a known branch current, or it
leaves the layout as it was. The commits and the edges of a whole run are
collected here directive by directive, so that every commit is known together
with the edges that were drawn with it and with the layout it was drawn into.
-/

/-- A commit with the edges that are drawn into it. -/
structure Drawn where
  node : CommitNode
  incoming : List Edge
  deriving Repr, DecidableEq

namespace Drawn

/-- The edges by which a commit continues its own branch. -/
def ownLines (drawn : Drawn) : List Edge :=
  drawn.incoming.filter fun edge => !edge.isMergeLine

end Drawn

/-- What is settled for good when a branch is created. -/
def Branch.place (branch : Branch) : String × Int × String :=
  (branch.name, branch.laneIndex, branch.color)

/-- The identifiers of the commits in order of creation. -/
def History.ids (history : History) : List String :=
  history.commits.map CommitNode.id

namespace Directive

/-- The name that a directive declares a branch under. -/
def declared? : Directive → Option String
  | .branch _ name => some name
  | _ => none

/-- The name of the branch that a directive asks to be current. -/
def asked? : Directive → Option String
  | .branch _ name => some name
  | .checkout _ name => some name
  | _ => none

end Directive

namespace Layout

/-- What a directive draws when a layout meets it. -/
def drawn? (settings : Settings) (layout : Layout) : Directive → Option Drawn
  | .commit index id tag =>
      let id := (given? id).getD (commitId index)
      some {
        node := layout.nextNode settings id ((given? tag).getD id) false
        incoming := edgeFrom layout.current id false
      }
  | .merge index name =>
      let id := mergeId index
      some {
        node := layout.nextNode settings id mergeLabel true
        incoming :=
          edgeFrom layout.current id false ++
            (layout.table.find? name).toList.flatMap fun source => edgeFrom source id true
      }
  | _ => none

/-- The branch that a directive merges, if a layout knows it. -/
def mergedBranch? (layout : Layout) : Directive → Option Branch
  | .merge _ name => layout.table.find? name
  | _ => none

/-- The branches whose tips become parents of what a directive draws. -/
def parentBranches (layout : Layout) (directive : Directive) : List Branch :=
  layout.current :: (layout.mergedBranch? directive).toList

/-- The branch that a layout creates under a name it does not know. -/
def newBranch (settings : Settings) (layout : Layout) (name : String) : Branch where
  name := name
  laneIndex := layout.nextLane
  color := settings.palette.color (layout.nextLane + 1)
  tip := layout.current.tip

/-- A layout with a new branch, which is current. -/
def create (settings : Settings) (layout : Layout) (name : String) : Layout :=
  { layout with
    nextLane := layout.nextLane + 1
    table := layout.table.create (layout.newBranch settings name) }

/-- The branches after a creation are those before it and the new one. -/
theorem mem_create_iff
    {settings : Settings}
    {layout : Layout}
    {name : String}
    {branch : Branch} :
    branch ∈ (layout.create settings name).table.toList ↔
      branch ∈ layout.table.toList ∨ branch = layout.newBranch settings name := by
  simp [create]

/-- The four ways in which a directive can change a layout. -/
inductive Move (settings : Settings) (layout : Layout) : Directive → Layout → Prop
  | draw
      {directive : Directive}
      {drawn : Drawn}
      (drawnBy : layout.drawn? settings directive = some drawn) :
      Move settings layout directive (layout.append drawn.node drawn.incoming)
  | create
      (index : Int)
      (name : String)
      (unknown : name ∉ layout.table.names) :
      Move settings layout (.branch index name) (layout.create settings name)
  | switch
      {directive : Directive}
      {name : String}
      {table : BranchTable}
      (asked : directive.asked? = some name)
      (found : layout.table.switch? name = some table) :
      Move settings layout directive { layout with table }
  | stay
      {directive : Directive}
      (undrawn : layout.drawn? settings directive = none)
      (undeclared : directive.declared? = none)
      (unknown : ∀ name ∈ directive.asked?, name ∉ layout.table.names) :
      Move settings layout directive layout

/-- A directive that draws something adds it, and that is all it does. -/
theorem apply_eq_append
    {settings : Settings}
    {layout : Layout}
    {directive : Directive}
    {drawn : Drawn}
    (drawnBy : layout.drawn? settings directive = some drawn) :
    layout.apply settings directive = layout.append drawn.node drawn.incoming := by
  cases directive with
  | commit index id tag =>
      cases drawnBy
      rfl
  | merge index name =>
      cases drawnBy
      cases lookup : layout.table.find? name <;> simp [apply, merge, lookup]
  | _ =>
      simp [drawn?] at drawnBy

/-- What is drawn is the next commit of the current branch. -/
theorem node_of_drawn?
    {settings : Settings}
    {layout : Layout}
    {directive : Directive}
    {drawn : Drawn}
    (drawnBy : layout.drawn? settings directive = some drawn) :
    ∃ id label isMerge, drawn.node = layout.nextNode settings id label isMerge := by
  cases directive with
  | commit index id tag =>
      cases drawnBy
      exact ⟨_, _, _, rfl⟩
  | merge index name =>
      cases drawnBy
      exact ⟨_, _, _, rfl⟩
  | _ =>
      simp [drawn?] at drawnBy

/-- What leads into a commit comes from the current branch and from the merged one. -/
theorem incoming_of_drawn?
    {settings : Settings}
    {layout : Layout}
    {directive : Directive}
    {drawn : Drawn}
    (drawnBy : layout.drawn? settings directive = some drawn) :
    drawn.incoming =
      edgeFrom layout.current drawn.node.id false ++
        (layout.mergedBranch? directive).toList.flatMap
          fun source => edgeFrom source drawn.node.id true := by
  cases directive with
  | commit index id tag =>
      cases drawnBy
      simp [mergedBranch?, nextNode]
  | merge index name =>
      cases drawnBy
      rfl
  | _ =>
      simp [drawn?] at drawnBy

/-- Only a merge merges a branch, which is then one of the table. -/
theorem mergedBranch?_eq_some
    {layout : Layout}
    {directive : Directive}
    {source : Branch}
    (merged : layout.mergedBranch? directive = some source) :
    source ∈ layout.table.toList ∧ ∃ index, directive = .merge index source.name := by
  cases directive with
  | merge index name =>
      have found := BranchTable.mem_of_find? merged
      exact ⟨found.1, index, by rw [found.2]⟩
  | _ =>
      simp [mergedBranch?] at merged

/-- There is one edge from a branch that has a tip and none from one without. -/
theorem edgeFrom_eq_toList
    (branch : Branch)
    (target : String)
    (isMergeLine : Bool) :
    edgeFrom branch target isMergeLine =
      (branch.tip.map fun source => (⟨source, target, branch.color, isMergeLine⟩ : Edge)).toList := by
  unfold edgeFrom
  cases branch.tip <;> rfl

@[simp] theorem ids_append
    (layout : Layout)
    (node : CommitNode)
    (incoming : List Edge) :
    (layout.append node incoming).history.ids = layout.history.ids ++ [node.id] := by
  simp [History.ids, history, append]

/-- After a commit, its identifier is the tip of the current branch, and other branches are kept. -/
theorem branch_of_append
    {layout : Layout}
    (distinct : layout.table.names.Nodup)
    {node : CommitNode}
    {incoming : List Edge}
    {branch : Branch}
    (member : branch ∈ (layout.append node incoming).table.toList) :
    branch.name = layout.current.name ∧ branch.tip = some node.id ∨
      branch ∈ layout.table.toList ∧ branch.name ≠ layout.current.name := by
  rcases (BranchTable.mem_toList_advance_iff distinct).mp member with advanced | kept
  · rw [advanced]
    exact Or.inl ⟨rfl, rfl⟩
  · exact Or.inr kept

/-- The branches that a directive starts from are branches of the layout. -/
theorem parentBranches_subset
    (layout : Layout)
    (directive : Directive) :
    layout.parentBranches directive ⊆ layout.table.toList := by
  intro branch member
  rcases List.mem_cons.mp member with isCurrent | isMerged
  · rw [isCurrent]
    exact layout.table.current_mem_toList
  · exact (mergedBranch?_eq_some (Option.mem_toList.mp isMerged)).1

/-- The edges into a commit start at the tips of its parent branches, and all of these have one. -/
theorem exists_incoming_iff
    {settings : Settings}
    {layout : Layout}
    {directive : Directive}
    {drawn : Drawn}
    (drawnBy : layout.drawn? settings directive = some drawn)
    {source target : String} :
    (∃ edge ∈ drawn.incoming, edge.source = source ∧ edge.target = target) ↔
      target = drawn.node.id ∧
        ∃ branch ∈ layout.parentBranches directive, branch.tip = some source := by
  have exists_edgeFrom_iff
      (branch : Branch)
      (isMergeLine : Bool) :
      (∃ edge ∈ edgeFrom branch drawn.node.id isMergeLine,
          edge.source = source ∧ edge.target = target) ↔
        target = drawn.node.id ∧ branch.tip = some source := by
    unfold edgeFrom
    cases branch.tip <;> simp [eq_comm, and_comm]
  simp only [incoming_of_drawn? drawnBy, parentBranches, List.mem_append, List.mem_flatMap,
    List.mem_cons, or_and_right, exists_or, exists_eq_left]
  rw [exists_edgeFrom_iff]
  constructor
  · intro incoming
    rcases incoming with own | ⟨edge, ⟨merged, isMerged, leaves⟩, isSource, isTarget⟩
    · exact ⟨own.1, Or.inl own.2⟩
    · have ends := (exists_edgeFrom_iff merged true).mp ⟨edge, leaves, isSource, isTarget⟩
      exact ⟨ends.1, Or.inr ⟨merged, isMerged, ends.2⟩⟩
  · intro parent
    rcases parent with ⟨isNew, isTip | ⟨merged, isMerged, isTip⟩⟩
    · exact Or.inl ⟨isNew, isTip⟩
    · obtain ⟨edge, leaves, ends⟩ := (exists_edgeFrom_iff merged true).mpr ⟨isNew, isTip⟩
      exact Or.inr ⟨edge, ⟨merged, isMerged, leaves⟩, ends⟩

/-- Whatever a directive does is one of the moves. -/
theorem move_apply
    (settings : Settings)
    (layout : Layout)
    (directive : Directive) :
    Move settings layout directive (layout.apply settings directive) := by
  cases drawnBy : layout.drawn? settings directive with
  | some drawn =>
      rw [apply_eq_append drawnBy]
      exact .draw drawnBy
  | none =>
      cases directive with
      | branch index name =>
          cases found : layout.table.switch? name with
          | none =>
              simp only [apply, branch, found]
              exact .create index name (BranchTable.switch?_eq_none_iff.mp found)
          | some table =>
              simp only [apply, branch, found]
              exact .switch rfl found
      | checkout index name =>
          cases found : layout.table.switch? name with
          | none =>
              simp only [apply, checkout, found]
              refine .stay rfl rfl ?_
              intro asked isAsked
              cases isAsked
              exact BranchTable.switch?_eq_none_iff.mp found
          | some table =>
              simp only [apply, checkout, found]
              exact .switch rfl found
      | unrecognized index text =>
          exact .stay rfl rfl (by simp [Directive.asked?])
      | _ =>
          simp [drawn?] at drawnBy

/-- What a list of directives draws, in order. -/
def drawing (settings : Settings) (layout : Layout) : List Directive → List Drawn
  | [] => []
  | directive :: rest =>
      (layout.drawn? settings directive).toList ++
        (layout.apply settings directive).drawing settings rest

/-- What every directive preserves is preserved by a list of directives. -/
theorem run_of_apply
    {settings : Settings}
    {Invariant : Layout → Prop}
    (preserved :
      ∀ layout, Invariant layout → ∀ directive, Invariant (layout.apply settings directive))
    {layout : Layout}
    (holds : Invariant layout)
    (directives : List Directive) :
    Invariant (layout.run settings directives) := by
  induction directives generalizing layout with
  | nil =>
      exact holds
  | cons directive rest inductionHypothesis =>
      exact inductionHypothesis (preserved layout holds directive)

theorem run_append
    (settings : Settings)
    (layout : Layout)
    (first second : List Directive) :
    layout.run settings (first ++ second) = (layout.run settings first).run settings second :=
  List.foldl_append

theorem drawing_append
    (settings : Settings)
    (layout : Layout)
    (first second : List Directive) :
    layout.drawing settings (first ++ second) =
      layout.drawing settings first ++ (layout.run settings first).drawing settings second := by
  induction first generalizing layout with
  | nil =>
      rfl
  | cons directive rest inductionHypothesis =>
      simp only [List.cons_append, drawing, run, List.foldl_cons, List.append_assoc]
      rw [inductionHypothesis]
      rfl

/-- A directive adds what it draws behind the commits and the edges. -/
theorem commits_and_edges_apply
    (settings : Settings)
    (layout : Layout)
    (directive : Directive) :
    (layout.apply settings directive).commits =
        layout.commits ++ (layout.drawn? settings directive).toList.map Drawn.node ∧
      (layout.apply settings directive).edges =
        layout.edges ++ (layout.drawn? settings directive).toList.flatMap Drawn.incoming := by
  cases drawnBy : layout.drawn? settings directive with
  | some drawn =>
      rw [apply_eq_append drawnBy]
      simp [append]
  | none =>
      have moved := move_apply settings layout directive
      generalize layout.apply settings directive = next at moved
      cases moved with
      | draw drawnSome =>
          simp [drawnBy] at drawnSome
      | _ =>
          simp [create]

/-- A run adds the commits and the edges of its drawing, and no others. -/
theorem commits_and_edges_run
    (settings : Settings)
    (layout : Layout)
    (directives : List Directive) :
    (layout.run settings directives).commits =
        layout.commits ++ (layout.drawing settings directives).map Drawn.node ∧
      (layout.run settings directives).edges =
        layout.edges ++ (layout.drawing settings directives).flatMap Drawn.incoming := by
  induction directives generalizing layout with
  | nil =>
      simp [run, drawing]
  | cons directive rest inductionHypothesis =>
      have first := commits_and_edges_apply settings layout directive
      have later := inductionHypothesis (layout.apply settings directive)
      rw [run, List.foldl_cons, ← run, later.1, later.2, first.1, first.2, drawing]
      simp

/--
Every part of a drawing was drawn by one directive of the list, when the
directives before it had drawn everything that precedes it.
-/
theorem exists_directive_of_drawing
    {settings : Settings}
    {layout : Layout}
    {directives : List Directive}
    {position : Nat}
    {drawn : Drawn}
    (listed : (layout.drawing settings directives)[position]? = some drawn) :
    ∃ earlier directive later,
      directives = earlier ++ directive :: later ∧
        (layout.run settings earlier).drawn? settings directive = some drawn ∧
        (layout.drawing settings earlier).length = position := by
  induction directives generalizing layout position with
  | nil =>
      simp [drawing] at listed
  | cons directive rest inductionHypothesis =>
      cases drawnBy : layout.drawn? settings directive with
      | none =>
          simp only [drawing, drawnBy, Option.toList_none, List.nil_append] at listed
          obtain ⟨earlier, found, later, shape, drawnFound, counted⟩ :=
            inductionHypothesis listed
          refine ⟨directive :: earlier, found, later, by simp [shape], drawnFound, ?_⟩
          simpa [drawing, drawnBy] using counted
      | some head =>
          simp only [drawing, drawnBy, Option.toList_some, List.singleton_append] at listed
          cases position with
          | zero =>
              refine ⟨[], directive, rest, rfl, ?_, rfl⟩
              simpa [run, drawnBy] using listed
          | succ position =>
              obtain ⟨earlier, found, later, shape, drawnFound, counted⟩ :=
                inductionHypothesis (by simpa using listed)
              refine ⟨directive :: earlier, found, later, by simp [shape], drawnFound, ?_⟩
              simpa [drawing, drawnBy] using counted

/-- No directive moves a branch that exists. -/
theorem places_prefix_apply
    (settings : Settings)
    (layout : Layout)
    (directive : Directive) :
    layout.branches.map Branch.place <+:
      (layout.apply settings directive).branches.map Branch.place := by
  have moved := move_apply settings layout directive
  generalize layout.apply settings directive = next at moved
  cases moved with
  | draw drawnBy =>
      simp [append, branches, BranchTable.toList, BranchTable.advance, Branch.place]
  | create index name unknown =>
      simp [Layout.create, branches]
  | switch asked found =>
      simp [branches, BranchTable.toList_of_switch? found]
  | stay =>
      exact List.prefix_rfl

/-- A run changes neither the place nor the color of a branch that exists. -/
theorem places_prefix_run
    (settings : Settings)
    (layout : Layout)
    (directives : List Directive) :
    layout.branches.map Branch.place <+:
      (layout.run settings directives).branches.map Branch.place := by
  induction directives generalizing layout with
  | nil =>
      exact List.prefix_rfl
  | cons directive rest inductionHypothesis =>
      exact (places_prefix_apply settings layout directive).trans
        (inductionHypothesis (layout.apply settings directive))

end Layout

end GitLanes
