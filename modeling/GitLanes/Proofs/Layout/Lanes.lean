import GitLanes.Proofs.Appearance
import GitLanes.Proofs.Layout.Commits

namespace GitLanes

/-!
# Lanes

Branches take their lanes in the order in which their names are first declared,
behind the main branch, and a lane has its color for good. The two counters of a
layout never run ahead of what they count, and no tip is an empty text, so that
a branch with a tip can be told from one without by the tip alone.
-/

/-- The color of a lane; the second color is left out. -/
def Palette.ofLane (palette : Palette) (lane : Nat) : String :=
  palette.color (if lane = 0 then 0 else lane + 1)

/-- The names of the branches that directives lead to, each where it is first declared. -/
def declaredNames (directives : List Directive) : List String :=
  (mainBranch :: directives.filterMap Directive.declared?).eraseDups

namespace Palette

theorem getElem?_color
    (palette : Palette)
    (index : Nat) :
    palette.colors[index % palette.colors.length]? = some (palette.color index) := by
  have inRange := Nat.mod_lt index palette.size_pos
  rw [size] at inRange
  rw [List.getElem?_eq_getElem inRange, color, List.get_eq_getElem]
  congr 2

/-- The first lane has the first color, and the second one goes on with the third. -/
theorem getElem?_ofLane
    (palette : Palette)
    (lane : Nat) :
    palette.colors[if lane = 0 then 0 else (lane + 1) % palette.colors.length]? =
      some (palette.ofLane lane) := by
  rw [ofLane]
  split
  · simpa using palette.getElem?_color 0
  · exact palette.getElem?_color (lane + 1)

end Palette

/-- A directive that declares no new name adds none. -/
theorem declaredNames_of_known
    {directives : List Directive}
    {directive : Directive}
    (known : ∀ name ∈ directive.declared?, name ∈ declaredNames directives) :
    declaredNames (directives ++ [directive]) = declaredNames directives := by
  unfold declaredNames at known ⊢
  rw [List.filterMap_append, ← List.cons_append]
  cases declares : directive.declared? with
  | none =>
      rw [List.filterMap_cons_none declares, List.filterMap_nil, List.append_nil]
  | some name =>
      have old := List.mem_eraseDups.mp (known name declares)
      rw [List.filterMap_cons_some declares, List.filterMap_nil, eraseDups_concat, if_pos old]

/-- A name that is declared for the first time comes last. -/
theorem declaredNames_of_new
    {directives : List Directive}
    {directive : Directive}
    {name : String}
    (declares : directive.declared? = some name)
    (unknown : name ∉ declaredNames directives) :
    declaredNames (directives ++ [directive]) = declaredNames directives ++ [name] := by
  unfold declaredNames at unknown ⊢
  rw [List.mem_eraseDups] at unknown
  rw [List.filterMap_append, ← List.cons_append, List.filterMap_cons_some declares,
    List.filterMap_nil, eraseDups_concat, if_neg unknown]

namespace Layout

/-- A directive that declares a branch asks for it. -/
theorem asked?_of_declared?
    {directive : Directive}
    {name : String}
    (declares : directive.declared? = some name) :
    directive.asked? = some name := by
  cases directive with
  | branch index declared =>
      exact declares
  | _ =>
      cases declares

/-- The names of the branches are those that were declared, in order of declaration. -/
theorem names_replay
    (settings : Settings)
    (directives : List Directive) :
    (replay settings directives).table.names = declaredNames directives := by
  induction directives using List.reverseRecOn with
  | nil =>
      rfl
  | append_singleton directives directive inductionHypothesis =>
      rw [replay_concat]
      have moved := move_apply settings (replay settings directives) directive
      generalize (replay settings directives).apply settings directive = next at moved
      cases moved with
      | draw drawnBy =>
          rw [declaredNames_of_known (by simp [declared?_of_drawn? drawnBy]),
            ← inductionHypothesis]
          exact BranchTable.names_advance _ _
      | create index name unknown =>
          rw [inductionHypothesis] at unknown
          rw [declaredNames_of_new rfl unknown, ← inductionHypothesis]
          exact BranchTable.names_create _ _
      | switch asked found =>
          rw [declaredNames_of_known, ← inductionHypothesis]
          · exact BranchTable.names_of_switch? found
          · intro declared declares
            obtain rfl := Option.some.inj ((asked?_of_declared? declares).symm.trans asked)
            rw [← inductionHypothesis]
            exact BranchTable.mem_names_of_switch? found
      | stay undrawn undeclared unknown =>
          rw [declaredNames_of_known (by simp [undeclared]), inductionHypothesis]

/-- A layout whose branches have the lanes and the colors of their positions. -/
structure Numbered (settings : Settings) (layout : Layout) : Prop where
  nextLane : layout.nextLane = layout.branches.length
  places :
    layout.branches.map Branch.place =
      layout.table.names.mapIdx fun lane name => (name, (lane : Int), settings.palette.ofLane lane)

namespace Numbered

theorem start (settings : Settings) :
    (Layout.start settings).Numbered settings where
  nextLane := rfl
  places := rfl

theorem draw
    {settings : Settings}
    {layout : Layout}
    (numbered : layout.Numbered settings)
    (node : CommitNode)
    (incoming : List Edge) :
    (layout.append node incoming).Numbered settings where
  nextLane := by
    simpa [append, branches, BranchTable.toList, BranchTable.advance] using numbered.nextLane
  places := by
    have samePlaces :
        (layout.append node incoming).branches.map Branch.place =
          layout.branches.map Branch.place := by
      simp [append, branches, BranchTable.toList, BranchTable.advance, Branch.place]
    rw [samePlaces, append, BranchTable.names_advance]
    exact numbered.places

/-- A new branch takes the next free lane, which is that of its position. -/
theorem create
    {settings : Settings}
    {layout : Layout}
    (numbered : layout.Numbered settings)
    (name : String) :
    (layout.create settings name).Numbered settings where
  nextLane := by
    simp [Layout.create, branches, numbered.nextLane]
  places := by
    have positive : layout.nextLane ≠ 0 := by
      simp [numbered.nextLane, branches, BranchTable.toList]
    have asMany : layout.table.names.length = layout.nextLane := by
      rw [numbered.nextLane, BranchTable.names, List.length_map, branches]
    rw [Layout.create, BranchTable.names_create, List.mapIdx_concat, ← numbered.places, asMany,
      Palette.ofLane, if_neg positive, branches, BranchTable.toList_create, List.map_append]
    rfl

/-- Every directive keeps the branches numbered. -/
theorem apply
    {settings : Settings}
    {layout : Layout}
    (numbered : layout.Numbered settings)
    (directive : Directive) :
    (layout.apply settings directive).Numbered settings := by
  have moved := move_apply settings layout directive
  generalize layout.apply settings directive = next at moved
  cases moved with
  | draw drawnBy =>
      exact numbered.draw _ _
  | create index name unknown =>
      exact numbered.create name
  | switch asked found =>
      have sameBranches := BranchTable.toList_of_switch? found
      constructor
      · exact numbered.nextLane.trans (congrArg List.length sameBranches.symm)
      · rw [branches, BranchTable.names_of_switch? found, sameBranches]
        exact numbered.places
  | stay =>
      exact numbered

theorem run
    {settings : Settings}
    {layout : Layout}
    (numbered : layout.Numbered settings)
    (directives : List Directive) :
    (layout.run settings directives).Numbered settings :=
  run_of_apply (fun _ => apply) numbered directives

/-- The branch at a position has the lane and the color of that position. -/
theorem lane_and_color
    {settings : Settings}
    {layout : Layout}
    (numbered : layout.Numbered settings)
    {position : Nat}
    {branch : Branch}
    (found : layout.branches[position]? = some branch) :
    branch.laneIndex = position ∧ branch.color = settings.palette.ofLane position := by
  have place := congrArg (·[position]?) numbered.places
  simp only [List.getElem?_map, found, List.getElem?_mapIdx, Option.map_some] at place
  obtain ⟨name, -, samePlace⟩ := Option.map_eq_some_iff.mp place.symm
  simp only [Branch.place, Prod.mk.injEq] at samePlace
  exact ⟨samePlace.2.1.symm, samePlace.2.2.symm⟩

end Numbered

/-- The branches of the layout of a list of directives are numbered. -/
theorem numbered_replay
    (settings : Settings)
    (directives : List Directive) :
    (replay settings directives).Numbered settings :=
  (Numbered.start settings).run directives

theorem textOr_ne_empty
    {fallback : String}
    (solid : fallback ≠ "")
    (text : Option String) :
    Directive.textOr fallback text ≠ "" := by
  cases text with
  | none =>
      exact solid
  | some text =>
      by_cases empty : text = "" <;> simp [Directive.textOr, empty, solid]

/-- No commit is given an empty identifier. -/
theorem id_ne_empty_of_caption?
    {directive : Directive}
    {caption : Caption}
    (captioned : directive.caption? = some caption) :
    caption.id ≠ "" := by
  cases directive with
  | commit index id tag =>
      cases captioned
      exact textOr_ne_empty (by simp) id
  | merge index name =>
      cases captioned
      simp
  | _ =>
      cases captioned

/-- No commit that is drawn has an empty identifier. -/
theorem id_ne_empty
    {settings : Settings}
    {directives : List Directive}
    {id : String}
    (drawn : id ∈ (replay settings directives).history.ids) :
    id ≠ "" := by
  obtain ⟨commit, member, rfl⟩ := List.mem_map.mp drawn
  have captions := Script.map_caption_commits settings ⟨directives⟩
  have captioned : commit.caption ∈ directives.filterMap Directive.caption? :=
    captions ▸ List.mem_map_of_mem member
  obtain ⟨directive, -, draws⟩ := List.mem_filterMap.mp captioned
  exact id_ne_empty_of_caption? draws

/--
The branches of a layout are the main branch and the declared ones, each where it
was declared first, on the lane and in the color of its position. The counters
tell how many branches and commits there are, the current branch is the one that
is found under its name, and every tip is the identifier of some commit, which
is never empty.
-/
theorem branches_are_in_order_of_declaration
    (settings : Settings)
    (directives : List Directive) :
    let layout := replay settings directives
    layout.branches.map Branch.name =
        ("main" :: directives.filterMap Directive.declared?).eraseDups ∧
      (∀ (position : Nat) (branch : Branch),
        layout.branches[position]? = some branch →
          branch.laneIndex = position ∧
            settings.palette.colors[
                if position = 0 then 0 else (position + 1) % settings.palette.colors.length]? =
              some branch.color) ∧
      layout.nextLane = layout.branches.length ∧
      layout.step = layout.commits.length ∧
      layout.table.find? layout.current.name = some layout.current ∧
      ∀ branch ∈ layout.branches,
        ∀ tip ∈ branch.tip, tip ≠ "" ∧ ∃ commit ∈ layout.commits, commit.id = tip := by
  intro layout
  have consistent := consistent_replay settings directives
  have numbered := numbered_replay settings directives
  refine ⟨names_replay settings directives, ?lanes, numbered.nextLane, consistent.stepCounted,
    ?current, ?tips⟩
  case lanes =>
    intro position branch found
    obtain ⟨lane, color⟩ := numbered.lane_and_color found
    exact ⟨lane, color ▸ settings.palette.getElem?_ofLane position⟩
  case current =>
    exact (BranchTable.find?_eq_some_iff consistent.distinctNames).mpr
      ⟨layout.table.current_mem_toList, rfl⟩
  case tips =>
    intro branch member tip hasTip
    have drawn := consistent.tipsDrawn branch member tip hasTip
    exact ⟨id_ne_empty drawn, List.mem_map.mp drawn⟩

end Layout

end GitLanes
