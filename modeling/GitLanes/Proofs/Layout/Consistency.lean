import GitLanes.Proofs.Layout.Drawing

namespace GitLanes

/-!
# Consistent layouts

Every layout that directives can lead to keeps its branches apart, its tips and
edges among the commits that were drawn, and its counter in step with them.
-/

namespace Layout

/-- What holds of every layout that directives can lead to. -/
structure Consistent (layout : Layout) : Prop where
  distinctNames : layout.table.names.Nodup
  commitsOwned : ∀ commit ∈ layout.commits, commit.branch ∈ layout.table.names
  tipsDrawn :
    ∀ branch ∈ layout.table.toList,
      ∀ tip ∈ branch.tip, tip ∈ layout.history.ids
  edgesKnown :
    ∀ edge ∈ layout.edges,
      edge.source ∈ layout.history.ids ∧ edge.target ∈ layout.history.ids
  stepCounted : layout.step = layout.commits.length

namespace Consistent

theorem start (settings : Settings) : (Layout.start settings).Consistent where
  distinctNames := by simp [Layout.start, BranchTable.names]
  commitsOwned := by simp [Layout.start]
  tipsDrawn := by simp [Layout.start]
  edgesKnown := by simp [Layout.start]
  stepCounted := rfl

/-- What a directive draws belongs to the current branch and starts at commits that exist. -/
theorem draw
    {settings : Settings}
    {layout : Layout}
    (consistent : layout.Consistent)
    {directive : Directive}
    {drawn : Drawn}
    (drawnBy : layout.drawn? settings directive = some drawn) :
    (layout.append drawn.node drawn.incoming).Consistent where
  distinctNames := by
    simpa [append] using consistent.distinctNames
  commitsOwned := by
    intro commit member
    obtain ⟨id, label, isMerge, nodeShape⟩ := node_of_drawn? drawnBy
    rw [append, BranchTable.names_advance]
    rcases List.mem_append.mp member with old | new
    · exact consistent.commitsOwned commit old
    · rw [List.mem_singleton.mp new, nodeShape]
      exact layout.table.current_name_mem_names
  tipsDrawn := by
    intro branch member tip hasTip
    rw [ids_append, List.mem_append, List.mem_singleton]
    rcases branch_of_append consistent.distinctNames member with ⟨-, newTip⟩ | ⟨old, -⟩
    · rw [newTip] at hasTip
      exact Or.inr (Option.some.inj hasTip).symm
    · exact Or.inl (consistent.tipsDrawn branch old tip hasTip)
  edgesKnown := by
    intro edge member
    simp only [ids_append, List.mem_append, List.mem_singleton]
    rcases List.mem_append.mp member with old | new
    · have ends := consistent.edgesKnown edge old
      exact ⟨Or.inl ends.1, Or.inl ends.2⟩
    · obtain ⟨isNew, branch, isParent, isTip⟩ :=
        (exists_incoming_iff drawnBy).mp ⟨edge, new, rfl, rfl⟩
      have known := parentBranches_subset layout directive isParent
      exact ⟨Or.inl (consistent.tipsDrawn branch known edge.source isTip), Or.inr isNew⟩
  stepCounted := by
    simp [append, consistent.stepCounted]

/-- A branch created under a new name starts at a commit that exists. -/
theorem create
    {layout : Layout}
    (consistent : layout.Consistent)
    (settings : Settings)
    {name : String}
    (unknown : name ∉ layout.table.names) :
    (layout.create settings name).Consistent where
  distinctNames := by
    rw [Layout.create, BranchTable.names_create, ← List.concat_eq_append, List.nodup_concat]
    exact ⟨unknown, consistent.distinctNames⟩
  commitsOwned := by
    intro commit member
    rw [Layout.create, BranchTable.names_create]
    exact List.mem_append_left _ (consistent.commitsOwned commit member)
  tipsDrawn := by
    intro branch member tip hasTip
    rcases mem_create_iff.mp member with old | rfl
    · exact consistent.tipsDrawn branch old tip hasTip
    · exact consistent.tipsDrawn _ layout.table.current_mem_toList tip hasTip
  edgesKnown := consistent.edgesKnown
  stepCounted := consistent.stepCounted

/-- Making another branch current keeps a layout consistent. -/
theorem switch
    {layout : Layout}
    (consistent : layout.Consistent)
    {table : BranchTable}
    (sameBranches : table.toList = layout.table.toList) :
    { layout with table }.Consistent where
  distinctNames := by
    simpa [BranchTable.names, sameBranches] using consistent.distinctNames
  commitsOwned := by
    simpa [BranchTable.names, sameBranches] using consistent.commitsOwned
  tipsDrawn := by
    rw [sameBranches]
    exact consistent.tipsDrawn
  edgesKnown := consistent.edgesKnown
  stepCounted := consistent.stepCounted

/-- Every directive keeps a layout consistent. -/
theorem apply
    {layout : Layout}
    (consistent : layout.Consistent)
    (settings : Settings)
    (directive : Directive) :
    (layout.apply settings directive).Consistent := by
  have moved := move_apply settings layout directive
  generalize layout.apply settings directive = next at moved
  cases moved with
  | draw drawnBy =>
      exact consistent.draw drawnBy
  | create index name unknown =>
      exact consistent.create settings unknown
  | switch asked found =>
      exact consistent.switch (BranchTable.toList_of_switch? found)
  | stay =>
      exact consistent

theorem run
    {layout : Layout}
    (consistent : layout.Consistent)
    (settings : Settings)
    (directives : List Directive) :
    (layout.run settings directives).Consistent :=
  run_of_apply (fun _ consistent => consistent.apply settings) consistent directives

end Consistent

/-- The layout that a list of directives leads to from the start. -/
def replay (settings : Settings) (directives : List Directive) : Layout :=
  (start settings).run settings directives

/-- The layout of a list of directives is consistent. -/
theorem consistent_replay
    (settings : Settings)
    (directives : List Directive) :
    (replay settings directives).Consistent :=
  (Consistent.start settings).run settings directives

theorem replay_concat
    (settings : Settings)
    (directives : List Directive)
    (directive : Directive) :
    replay settings (directives ++ [directive]) =
      (replay settings directives).apply settings directive :=
  run_append settings (start settings) directives [directive]

end Layout

/-- The commits of a script, each with the edges that were drawn with it. -/
def Script.drawing (settings : Settings) (script : Script) : List Drawn :=
  (Layout.start settings).drawing settings script.directives

namespace Script

/-- The commits of a history are the nodes that its directives draw. -/
theorem commits_eq_map_drawing
    (settings : Settings)
    (script : Script) :
    (script.history settings).commits = (script.drawing settings).map Drawn.node :=
  (Layout.commits_and_edges_run settings (Layout.start settings) script.directives).1

theorem edges_eq_flatMap_drawing
    (settings : Settings)
    (script : Script) :
    (script.history settings).edges = (script.drawing settings).flatMap Drawn.incoming :=
  (Layout.commits_and_edges_run settings (Layout.start settings) script.directives).2

/--
A commit of a script was drawn by a directive into the layout that the
directives before it lead to, and that layout holds exactly the earlier commits.
-/
theorem exists_directive_of_drawing
    {settings : Settings}
    {script : Script}
    {position : Nat}
    {drawn : Drawn}
    (listed : (script.drawing settings)[position]? = some drawn) :
    ∃ earlier directive later,
      script.directives = earlier ++ directive :: later ∧
        (Layout.replay settings earlier).drawn? settings directive = some drawn ∧
        (Layout.replay settings earlier).commits =
          (script.history settings).commits.take position ∧
        (Layout.replay settings earlier).commits.length = position := by
  obtain ⟨earlier, directive, later, shape, drawnBy, counted⟩ :=
    Layout.exists_directive_of_drawing listed
  have earlierCommits :=
    (Layout.commits_and_edges_run settings (Layout.start settings) earlier).1
  refine ⟨earlier, directive, later, shape, drawnBy, ?_, ?_⟩
  · rw [commits_eq_map_drawing, drawing, shape, Layout.drawing_append, List.map_append,
      Layout.replay, earlierCommits, ← counted]
    simp [Layout.start]
  · rw [Layout.replay, earlierCommits, ← counted]
    simp [Layout.start]

end Script

end GitLanes
