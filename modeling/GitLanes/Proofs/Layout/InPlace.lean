import GitLanes.Layout.Session
import GitLanes.Proofs.Layout.Lanes

namespace GitLanes

/-!
# Layouts that are worked on in place

A layout can also be kept as one record that every operation changes bit by bit:
the branches are looked up by name, the current one among them, and so are the
colors by index. Such a lookup can fail, and then leaves behind whatever was
done before it. None of them fails on a record that directives have led to, and
the operations then do to it what they do to a layout.
-/

/-- Settings as they were given, with any number of colors. -/
structure GivenSettings where
  spacingX : Quantity
  spacingY : Quantity
  colors : List String
  deriving Repr, DecidableEq

/-- The color at an index, the colors repeating without end, if there are any. -/
def GivenSettings.color? (settings : GivenSettings) (index : Int) : Option String :=
  settings.colors[(index % settings.colors.length).toNat]?

/-- A layout as one record, with nothing but the name of its current branch. -/
structure Draft where
  branches : List Branch
  currentName : String
  nextLane : Nat
  step : Nat
  commits : List CommitNode
  edges : List Edge
  deriving Repr, DecidableEq

/-- The branch of a given name. -/
def Draft.find? (draft : Draft) (name : String) : Option Branch :=
  draft.branches.find? fun branch => branch.name == name

/-- What can go wrong while a draft is worked on. -/
inductive Mishap
  | unknownBranch (name : String)
  | refused (fault : Fault)
  deriving Repr, DecidableEq

/-- Work on a draft, which stays as it was left if the work breaks off. -/
abbrev Work := EStateM Mishap Draft

namespace Work

/-- The result of an attempt. -/
def ofAttempt {α : Type} : Except Fault α → Work α
  | .ok result => return result
  | .error fault => throw (.refused fault)

/-- The branch of a given name, which has to exist. -/
def branchNamed (name : String) : Work Branch := do
  match (← get).find? name with
  | some branch => return branch
  | none => throw (.unknownBranch name)

/-- The branch that is current. -/
def currentBranch : Work Branch := do
  branchNamed (← get).currentName

/-- The color at an index, which has to exist. -/
def colorAt (settings : GivenSettings) (index : Int) : Work String :=
  match settings.color? index with
  | some color => return color
  | none => throw (.refused .emptyPalette)

/-- The next commit on a branch. -/
def makeNode
    (settings : GivenSettings)
    (id label : String)
    (owner : Branch)
    (isMerge : Bool) :
    Work CommitNode := do
  let x ← ofAttempt (settings.spacingX.scale (← get).step)
  let y ← ofAttempt (settings.spacingY.scale owner.laneIndex)
  return ⟨id, label, x, y, owner.name, owner.color, isMerge⟩

/-- Draw an edge from the last commit of a branch, if it has one. -/
def drawEdge (source : Branch) (target : String) (isMergeLine : Bool) : Work Unit :=
  match given? source.tip with
  | none => return
  | some tip =>
      modify fun draft =>
        { draft with edges := draft.edges ++ [⟨tip, target, source.color, isMergeLine⟩] }

/-- Add a commit, which becomes the last one of its branch. -/
def place (node : CommitNode) (owner : Branch) : Work Unit := do
  modify fun draft => { draft with commits := draft.commits ++ [node] }
  modify fun draft =>
    { draft with
      branches := draft.branches.map fun branch =>
        if branch.name = owner.name then { branch with tip := some node.id } else branch }
  modify fun draft => { draft with step := draft.step + 1 }

/-- Make a commit. -/
def commit
    (settings : GivenSettings)
    (index : Int)
    (id tag : Option String) :
    Work Unit := do
  let current ← currentBranch
  let id := (given? id).getD (commitId index)
  let node ← makeNode settings id ((given? tag).getD id) current false
  drawEdge current id false
  place node current

/-- Make a branch current, creating it if need be; its lane is taken before its color is known. -/
def branch (settings : GivenSettings) (name : String) : Work Unit := do
  if ((← get).find? name).isNone then
    let lane := (← get).nextLane
    modify fun draft => { draft with nextLane := lane + 1 }
    let color ← colorAt settings (← get).nextLane
    let current ← currentBranch
    modify fun draft =>
      { draft with branches := draft.branches ++ [⟨name, lane, color, current.tip⟩] }
  modify fun draft => { draft with currentName := name }

/-- Make a known branch current. -/
def checkout (name : String) : Work Unit := do
  if ((← get).find? name).isSome then
    modify fun draft => { draft with currentName := name }

/-- Make a merge. -/
def merge (settings : GivenSettings) (index : Int) (name : String) : Work Unit := do
  let target ← currentBranch
  let source := (← get).find? name
  let id := mergeId index
  let node ← makeNode settings id mergeLabel target true
  drawEdge target id false
  match source with
  | none => pure ()
  | some source => drawEdge source id true
  place node target

/-- Carry out one directive. -/
def apply (settings : GivenSettings) : Directive → Work Unit
  | .commit index id tag => commit settings index id tag
  | .branch _ name => branch settings name
  | .checkout _ name => checkout name
  | .merge index name => merge settings index name
  | .unrecognized _ _ => return

/-- Carry out one step; a source is read before the first of its directives is carried out. -/
def perform (settings : GivenSettings) : Step → Work Unit
  | .line index text => apply settings (.ofLine index text.toList)
  | .directive given => apply settings given
  | .source text => do
      let script ← ofAttempt (Script.ofSource text)
      script.directives.forM (apply settings)
  | .look => return

end Work

namespace Draft

/-- The draft before its first directive, for which there has to be a color. -/
def start (settings : GivenSettings) : Except Fault Draft :=
  match settings.color? 0 with
  | none => .error .emptyPalette
  | some color =>
      .ok {
        branches := [⟨mainBranch, 0, color, none⟩]
        currentName := mainBranch
        nextLane := 1
        step := 0
        commits := []
        edges := [] }

/-- What went wrong in a step, if anything did, and what the step has left. -/
def attempt (settings : GivenSettings) (draft : Draft) (step : Step) : Option Mishap × Draft :=
  match (Work.perform settings step).run draft with
  | .ok _ after => (none, after)
  | .error mishap after => (some mishap, after)

/-- Carry out a list of steps, going on with what is left after one that went wrong. -/
def session
    (settings : GivenSettings)
    (draft : Draft) :
    List Step → List (Option Mishap × Draft)
  | [] => []
  | step :: steps =>
      let outcome := draft.attempt settings step
      outcome :: outcome.2.session settings steps

end Draft

/-- The settings with the colors that a palette was made from. -/
def Settings.given (settings : Settings) : GivenSettings where
  spacingX := settings.spacingX
  spacingY := settings.spacingY
  colors := settings.palette.colors

/-- A palette has a color at every index. -/
theorem Settings.color?_given
    (settings : Settings)
    (index : Int) :
    settings.given.color? index = some (settings.palette.color index) := by
  have inRange := settings.palette.remainder_lt_size index
  exact List.getElem?_eq_getElem inRange

namespace Layout

/-- A layout as a record. -/
def draft (layout : Layout) : Draft where
  branches := layout.branches
  currentName := layout.current.name
  nextLane := layout.nextLane
  step := layout.step
  commits := layout.commits
  edges := layout.edges

/-- A draft starts as the draft of the first layout. -/
theorem start_given (settings : Settings) :
    Draft.start settings.given = .ok (start settings).draft := by
  rw [Draft.start, Settings.color?_given]
  rfl

/-- What lookups in a draft rely on: no name and no identifier is taken for another or for none. -/
structure Workable (layout : Layout) : Prop where
  distinctNames : layout.table.names.Nodup
  tipsGiven : ∀ branch ∈ layout.branches, given? branch.tip = branch.tip

/-- The layout of a list of directives can be worked on. -/
theorem workable_replay
    (settings : Settings)
    (directives : List Directive) :
    (replay settings directives).Workable where
  distinctNames := (consistent_replay settings directives).distinctNames
  tipsGiven := by
    intro branch member
    have consistent := consistent_replay settings directives
    cases hasTip : branch.tip with
    | none =>
        rfl
    | some tip =>
        have drawn := consistent.tipsDrawn branch member tip hasTip
        simp [given?, id_ne_empty drawn]

namespace Workable

theorem find?_current
    {layout : Layout}
    (workable : layout.Workable) :
    layout.draft.find? layout.draft.currentName = some layout.current :=
  (BranchTable.find?_eq_some_iff workable.distinctNames).mpr
    ⟨layout.table.current_mem_toList, rfl⟩

/-- The tip of a branch is not the empty text. -/
theorem given?_tip
    {layout : Layout}
    (workable : layout.Workable)
    {name : String}
    {branch : Branch}
    (found : layout.table.find? name = some branch) :
    given? branch.tip = branch.tip :=
  workable.tipsGiven branch (BranchTable.mem_of_find? found).1

end Workable

end Layout

/-- Settings whose distances can be taken any number of times. -/
structure Settings.Scalable (settings : Settings) : Prop where
  spacingX : ∀ count, settings.spacingX.scale count = .ok (settings.spacingX.times count)
  spacingY : ∀ count, settings.spacingY.scale count = .ok (settings.spacingY.times count)

/-- Distances that are integers can be taken any number of times. -/
theorem Settings.scalable_of_integers
    (spacingX spacingY : Int)
    (palette : Palette) :
    Settings.Scalable ⟨.int spacingX, .int spacingY, palette⟩ where
  spacingX _ := rfl
  spacingY _ := rfl

/-! What each piece of work does to the draft of a layout. -/

namespace Work

theorem run_currentBranch
    {draft : Draft}
    {branch : Branch}
    (found : draft.find? draft.currentName = some branch) :
    currentBranch.run draft = .ok branch draft := by
  simp only [currentBranch, branchNamed, EStateM.run_bind, EStateM.run_get, found,
    EStateM.run_pure]

/-- A palette has a color at every index. -/
theorem run_colorAt
    (settings : Settings)
    (index : Int)
    (draft : Draft) :
    (colorAt settings.given index).run draft = .ok (settings.palette.color index) draft := by
  rw [colorAt, Settings.color?_given]
  rfl

/-- The next commit of a draft is that of the layout. -/
theorem run_makeNode
    {settings : Settings}
    (scalable : settings.Scalable)
    (layout : Layout)
    (id label : String)
    (isMerge : Bool) :
    (makeNode settings.given id label layout.current isMerge).run layout.draft =
      .ok (layout.nextNode settings id label isMerge) layout.draft := by
  simp only [makeNode, EStateM.run_bind, EStateM.run_get, Settings.given, scalable.spacingX,
    scalable.spacingY, ofAttempt, EStateM.run_pure]
  rfl

/-- A draft draws the edges that a layout draws. -/
theorem run_drawEdge
    {source : Branch}
    (tipGiven : given? source.tip = source.tip)
    (target : String)
    (isMergeLine : Bool)
    (draft : Draft) :
    (drawEdge source target isMergeLine).run draft =
      .ok () { draft with edges := draft.edges ++ Layout.edgeFrom source target isMergeLine } := by
  rw [drawEdge, tipGiven, Layout.edgeFrom]
  cases source.tip with
  | none =>
      simp only [EStateM.run_pure, List.append_nil]
  | some tip =>
      rfl

/-- A commit is placed after its edges were drawn, as it is appended together with them. -/
theorem run_place
    {layout : Layout}
    (workable : layout.Workable)
    (node : CommitNode)
    (incoming : List Edge) :
    (place node layout.current).run
        { layout.draft with edges := layout.edges ++ incoming } =
      .ok () (layout.append node incoming).draft := by
  have advanced := BranchTable.toList_advance_eq_map workable.distinctNames node.id
  have appended :
      (layout.append node incoming).draft =
        { layout.draft with
          branches := (layout.table.advance node.id).toList
          step := layout.step + 1
          commits := layout.commits ++ [node]
          edges := layout.edges ++ incoming } :=
    rfl
  rw [appended, advanced]
  rfl

/-- A commit does the same to the draft of a layout as to the layout. -/
theorem run_commit
    {settings : Settings}
    (scalable : settings.Scalable)
    {layout : Layout}
    (workable : layout.Workable)
    (index : Int)
    (id tag : Option String) :
    (commit settings.given index id tag).run layout.draft =
      .ok () (layout.commit settings index id tag).draft := by
  have tipGiven := workable.tipsGiven layout.current layout.table.current_mem_toList
  simp only [commit, EStateM.run_bind, run_currentBranch workable.find?_current,
    run_makeNode scalable, run_drawEdge tipGiven]
  exact run_place workable _ _

theorem run_merge
    {settings : Settings}
    (scalable : settings.Scalable)
    {layout : Layout}
    (workable : layout.Workable)
    (index : Int)
    (name : String) :
    (merge settings.given index name).run layout.draft =
      .ok () (layout.merge settings index name).draft := by
  have tipGiven := workable.tipsGiven layout.current layout.table.current_mem_toList
  have lookup : layout.draft.find? name = layout.table.find? name := rfl
  simp only [merge, EStateM.run_bind, EStateM.run_get, run_currentBranch workable.find?_current,
    run_makeNode scalable, run_drawEdge tipGiven, lookup, Layout.merge]
  cases found : layout.table.find? name with
  | none =>
      simp only [List.append_nil]
      exact run_place workable _ _
  | some source =>
      simp only [EStateM.run_bind, run_drawEdge (workable.given?_tip found), List.append_assoc]
      exact run_place workable _ _

/-- A draft knows the branches that its layout knows. -/
theorem isSome_find?_draft
    (layout : Layout)
    (name : String) :
    (layout.draft.find? name).isSome = (layout.table.switch? name).isSome := by
  have lookup := layout.table.map_current_switch? name
  change (layout.table.find? name).isSome = _
  rw [← lookup, Option.isSome_map]

/-- Only the name of the current branch is another one after a switch. -/
theorem draft_of_switch?
    {layout : Layout}
    {name : String}
    {table : BranchTable}
    (found : layout.table.switch? name = some table) :
    Layout.draft { layout with table } = { layout.draft with currentName := name } := by
  simp only [Layout.draft, Layout.branches, Layout.current, BranchTable.toList_of_switch? found,
    BranchTable.current_name_of_switch? found]

theorem run_checkout
    (layout : Layout)
    (name : String) :
    (checkout name).run layout.draft = .ok () (layout.checkout name).draft := by
  simp only [checkout, EStateM.run_bind, EStateM.run_get, isSome_find?_draft, Layout.checkout]
  cases found : layout.table.switch? name with
  | none =>
      rfl
  | some table =>
      rw [draft_of_switch? found]
      rfl

theorem run_branch
    (settings : Settings)
    {layout : Layout}
    (workable : layout.Workable)
    (name : String) :
    (branch settings.given name).run layout.draft =
      .ok () (layout.branch settings name).draft := by
  have lookup := isSome_find?_draft layout name
  simp only [branch, EStateM.run_bind, EStateM.run_get, ← Option.not_isSome, lookup,
    Layout.branch]
  cases found : layout.table.switch? name with
  | some table =>
      rw [draft_of_switch? found]
      rfl
  | none =>
      -- The lane is already taken when the current branch is looked up.
      have current :
          Draft.find? { layout.draft with nextLane := layout.draft.nextLane + 1 }
            layout.draft.currentName = some layout.current :=
        workable.find?_current
      simp only [Option.isSome_none, Bool.not_false, if_true, EStateM.run_bind, EStateM.run_get,
        EStateM.run_modify, run_colorAt, run_currentBranch current]
      rfl

/-- Every directive does the same to the draft of a layout as to the layout. -/
theorem run_apply
    {settings : Settings}
    (scalable : settings.Scalable)
    {layout : Layout}
    (workable : layout.Workable)
    (directive : Directive) :
    (apply settings.given directive).run layout.draft =
      .ok () (layout.apply settings directive).draft := by
  cases directive with
  | commit index id tag =>
      exact run_commit scalable workable index id tag
  | branch index name =>
      exact run_branch settings workable name
  | checkout index name =>
      exact run_checkout layout name
  | merge index name =>
      exact run_merge scalable workable index name
  | unrecognized index text =>
      rfl

end Work

end GitLanes
