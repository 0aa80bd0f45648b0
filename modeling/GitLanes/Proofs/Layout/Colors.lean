import GitLanes.Proofs.Layout.Consistency

namespace GitLanes

/-!
# Colors of a layout

Everything in a layout is drawn in the colors of the palette: a branch is given
one of them when it is created, and hands it on to its commits and to the edges
that start at its tip.
-/

/-- The color at an index is one of the palette. -/
theorem Palette.color_mem
    (palette : Palette)
    (index : Int) :
    palette.color index ∈ palette.colors :=
  List.get_mem _ _

namespace Layout

/-- A layout in which everything has one of some colors. -/
structure Inked (colors : List String) (layout : Layout) : Prop where
  branches : ∀ color ∈ layout.table.toList.map Branch.color, color ∈ colors
  commits : ∀ commit ∈ layout.commits, commit.color ∈ colors
  edges : ∀ edge ∈ layout.edges, edge.color ∈ colors

namespace Inked

theorem start (settings : Settings) :
    (Layout.start settings).Inked settings.palette.colors where
  branches := by simp [Layout.start, Palette.color_mem]
  commits := nofun
  edges := nofun

theorem of_mem
    {colors : List String}
    {layout : Layout}
    (inked : layout.Inked colors)
    {branch : Branch}
    (member : branch ∈ layout.table.toList) :
    branch.color ∈ colors :=
  inked.branches branch.color (List.mem_map_of_mem member)

theorem edgeFrom
    {colors : List String}
    {branch : Branch}
    (inked : branch.color ∈ colors)
    (target : String)
    (isMergeLine : Bool) :
    ∀ edge ∈ Layout.edgeFrom branch target isMergeLine, edge.color ∈ colors := by
  rw [edgeFrom_eq_toList]
  intro edge member
  obtain ⟨source, -, rfl⟩ := Option.map_eq_some_iff.mp (Option.mem_toList.mp member)
  exact inked

/-- What a directive draws has the color of a branch of the layout. -/
theorem draw
    {settings : Settings}
    {colors : List String}
    {layout : Layout}
    (inked : layout.Inked colors)
    {directive : Directive}
    {drawn : Drawn}
    (drawnBy : layout.drawn? settings directive = some drawn) :
    (layout.append drawn.node drawn.incoming).Inked colors where
  branches := by
    have kept : (layout.table.advance drawn.node.id).toList.map Branch.color =
        layout.table.toList.map Branch.color := by
      rw [BranchTable.toList_advance, BranchTable.toList, List.map_append, List.map_append,
        List.map_cons, List.map_cons]
    rw [append, kept]
    exact inked.branches
  commits := by
    intro commit member
    obtain ⟨id, label, isMerge, nodeShape⟩ := node_of_drawn? drawnBy
    rcases List.mem_append.mp member with old | new
    · exact inked.commits commit old
    · rw [List.mem_singleton.mp new, nodeShape]
      exact inked.of_mem layout.table.current_mem_toList
  edges := by
    intro edge member
    rcases List.mem_append.mp member with old | new
    · exact inked.edges edge old
    · rw [incoming_of_drawn? drawnBy, List.mem_append, List.mem_flatMap] at new
      rcases new with own | ⟨source, merged, leaves⟩
      · exact edgeFrom (inked.of_mem layout.table.current_mem_toList) _ _ edge own
      · have known := (mergedBranch?_eq_some (Option.mem_toList.mp merged)).1
        exact edgeFrom (inked.of_mem known) _ _ edge leaves

/-- A new branch takes its color from the palette. -/
theorem create
    {settings : Settings}
    {layout : Layout}
    (inked : layout.Inked settings.palette.colors)
    (name : String) :
    (layout.create settings name).Inked settings.palette.colors where
  branches := by
    rw [Layout.create, BranchTable.toList_create, List.map_append, List.forall_mem_append]
    refine ⟨inked.branches, ?_⟩
    rw [List.map_singleton, List.forall_mem_singleton]
    exact settings.palette.color_mem _
  commits := inked.commits
  edges := inked.edges

/-- No directive brings in a color that is not in the palette. -/
theorem apply
    {settings : Settings}
    {layout : Layout}
    (inked : layout.Inked settings.palette.colors)
    (directive : Directive) :
    (layout.apply settings directive).Inked settings.palette.colors := by
  have moved := move_apply settings layout directive
  generalize layout.apply settings directive = next at moved
  cases moved with
  | draw drawnBy =>
      exact inked.draw drawnBy
  | create index name unknown =>
      exact inked.create name
  | switch asked found =>
      exact ⟨BranchTable.toList_of_switch? found ▸ inked.branches, inked.commits, inked.edges⟩
  | stay =>
      exact inked

/-- No list of directives brings in a color that is not in the palette. -/
theorem run
    {settings : Settings}
    {layout : Layout}
    (inked : layout.Inked settings.palette.colors)
    (directives : List Directive) :
    (layout.run settings directives).Inked settings.palette.colors :=
  run_of_apply (fun _ => apply) inked directives

end Inked

/-- Everything in the layout of a list of directives has a color of the palette. -/
theorem inked_replay
    (settings : Settings)
    (directives : List Directive) :
    (replay settings directives).Inked settings.palette.colors :=
  (Inked.start settings).run directives

end Layout

end GitLanes
