import GitLanes.Proofs.Layout.Consistency

namespace GitLanes

/-!
# The edges of a layout

The edges of a script fall into blocks, one for each commit in order of
creation. A block holds at most one line that continues the branch of its commit
and, behind it, at most one merge line. Every edge leads from an earlier commit
to the commit of its block.
-/

namespace Script

/-- The edges of a block lead from earlier commits to the commit of the block. -/
theorem ends_of_drawing
    {settings : Settings}
    {script : Script}
    {position : Nat}
    {drawn : Drawn}
    (listed : (script.drawing settings)[position]? = some drawn)
    {edge : Edge}
    (member : edge ∈ drawn.incoming) :
    edge.target = drawn.node.id ∧
      edge.source ∈ (script.history settings).ids.take position := by
  obtain ⟨earlier, directive, later, -, drawnBy, earlierCommits, -⟩ :=
    exists_directive_of_drawing listed
  obtain ⟨isTarget, branch, isParent, isTip⟩ :=
    (Layout.exists_incoming_iff drawnBy).mp ⟨edge, member, rfl, rfl⟩
  refine ⟨isTarget, ?_⟩
  have known := Layout.parentBranches_subset _ _ isParent
  have drawnTip :=
    (Layout.consistent_replay settings earlier).tipsDrawn branch known edge.source isTip
  rw [History.ids, ← List.map_take, ← earlierCommits]
  exact drawnTip

/-- Every edge leads from a commit to a commit that was created later. -/
theorem positions_of_edge
    {settings : Settings}
    {script : Script}
    {edge : Edge}
    (member : edge ∈ (script.history settings).edges) :
    ∃ first second : Nat,
      first < second ∧
        (script.history settings).ids[first]? = some edge.source ∧
        (script.history settings).ids[second]? = some edge.target := by
  rw [edges_eq_flatMap_drawing] at member
  obtain ⟨drawn, isDrawn, incoming⟩ := List.mem_flatMap.mp member
  obtain ⟨second, listed⟩ := List.mem_iff_getElem?.mp isDrawn
  obtain ⟨isTarget, isSource⟩ := ends_of_drawing listed incoming
  obtain ⟨first, found⟩ := List.mem_iff_getElem?.mp isSource
  have inFront : first < second := by
    by_contra notBefore
    rw [List.getElem?_take_eq_none (by omega)] at found
    cases found
  refine ⟨first, second, inFront, ?_, ?_⟩
  · rwa [List.getElem?_take_of_lt inFront] at found
  · rw [History.ids, commits_eq_map_drawing, List.getElem?_map, List.getElem?_map, listed,
      isTarget]
    rfl

/-- A branch keeps its color from the moment at which a directive meets it. -/
theorem exists_branch_of_earlier
    {settings : Settings}
    {script : Script}
    {earlier later : List Directive}
    (shape : script.directives = earlier ++ later)
    {branch : Branch}
    (known : branch ∈ (Layout.replay settings earlier).branches) :
    ∃ final ∈ (script.history settings).branches, final.place = branch.place := by
  have kept := Layout.places_prefix_run settings (Layout.replay settings earlier) later
  rw [Layout.replay, ← Layout.run_append, ← shape] at kept
  exact List.mem_map.mp (kept.subset (List.mem_map_of_mem known))

/--
The edges of a script fall into one block for each commit.

The edges of a block lead to its commit and come from earlier ones. First comes
the line that continues the branch of the commit, if there is one, in the color
of the commit; then the merge line, if there is one, which only a merge has. A
merge line has the color of the branch that the merge names, and that branch
exists when the merge is drawn.
-/
theorem edges_fall_into_blocks
    (settings : Settings)
    (script : Script) :
    (script.drawing settings).map Drawn.node = (script.history settings).commits ∧
      (script.drawing settings).flatMap Drawn.incoming = (script.history settings).edges ∧
      ∀ (position : Nat) (block : Drawn),
        (script.drawing settings)[position]? = some block →
          (∀ edge ∈ block.incoming,
            edge.target = block.node.id ∧
              edge.source ∈ (script.history settings).ids.take position) ∧
          ∃ ownLine mergeLine : Option Edge,
            block.incoming = ownLine.toList ++ mergeLine.toList ∧
              (∀ edge ∈ ownLine, edge.isMergeLine = false ∧ edge.color = block.node.color) ∧
              ∀ edge ∈ mergeLine,
                edge.isMergeLine = true ∧ block.node.isMerge = true ∧
                  ∃ earlier index name later,
                    script.directives = earlier ++ .merge index name :: later ∧
                      (Layout.replay settings earlier).commits.length = position ∧
                      block.node.id = mergeId index ∧
                      (∃ source ∈ (Layout.replay settings earlier).branches,
                        source.name = name ∧ source.color = edge.color) ∧
                      ∃ source ∈ (script.history settings).branches,
                        source.name = name ∧ source.color = edge.color := by
  refine ⟨(commits_eq_map_drawing settings script).symm,
    (edges_eq_flatMap_drawing settings script).symm, ?_⟩
  intro position block listed
  refine ⟨fun edge member => ends_of_drawing listed member, ?_⟩
  obtain ⟨earlier, directive, later, shape, drawnBy, -, counted⟩ :=
    exists_directive_of_drawing listed
  obtain ⟨id, label, isMerge, nodeShape⟩ := Layout.node_of_drawn? drawnBy
  refine ⟨(Layout.replay settings earlier).current.tip.map fun source =>
      ⟨source, block.node.id, (Layout.replay settings earlier).current.color, false⟩,
    ((Layout.replay settings earlier).mergedBranch? directive).bind fun merged =>
      merged.tip.map fun source => ⟨source, block.node.id, merged.color, true⟩, ?_, ?_, ?_⟩
  · rw [Layout.incoming_of_drawn? drawnBy, Layout.edgeFrom_eq_toList]
    cases (Layout.replay settings earlier).mergedBranch? directive with
    | none =>
        rfl
    | some merged =>
        simp [Layout.edgeFrom_eq_toList]
  · intro edge isOwn
    obtain ⟨source, -, rfl⟩ := Option.map_eq_some_iff.mp isOwn
    exact ⟨rfl, by rw [nodeShape]; rfl⟩
  · intro edge isMergeLine
    obtain ⟨merged, isMerged, leaves⟩ := Option.mem_bind_iff.mp isMergeLine
    obtain ⟨source, -, rfl⟩ := Option.map_eq_some_iff.mp leaves
    obtain ⟨known, index, rfl⟩ := Layout.mergedBranch?_eq_some isMerged
    obtain ⟨final, finalMember, samePlace⟩ := exists_branch_of_earlier shape known
    simp only [Branch.place, Prod.mk.injEq] at samePlace
    cases drawnBy
    exact ⟨rfl, rfl, earlier, index, merged.name, later, shape, counted, rfl,
      ⟨merged, known, rfl, rfl⟩, final, finalMember, samePlace.1, samePlace.2.2⟩

end Script

end GitLanes
