import GitLanes.Command.Run
import GitLanes.Proofs.Layout.Edges
import GitLanes.Proofs.Topology.Nodes
import GitLanes.Proofs.Topology.Sorting

namespace GitLanes

/-!
# The topology of a layout

No edge of a layout dangles, because every edge starts and ends at commits. As
long as no two commits share an identifier, edges lead from earlier to later
commits, so the order of creation sorts them and no cycle can arise.
-/

namespace History

/-- No edge dangles if both ends of every edge are commits. -/
theorem danglingEdges_eq_nil
    {history : History}
    (known : ∀ edge ∈ history.edges, edge.source ∈ history.ids ∧ edge.target ∈ history.ids) :
    history.danglingEdges = [] := by
  refine danglingEdges_eq_nil_iff.mpr (strayEnds_eq_nil_iff.mpr fun edge member => ?_)
  exact (known edge member).imp knows_iff.mpr knows_iff.mpr

/-- Without dangling edges, the nodes are the identifiers of the commits. -/
theorem graph_nodes_eq
    {history : History}
    (known : ∀ edge ∈ history.edges, edge.source ∈ history.ids ∧ edge.target ∈ history.ids) :
    history.graph.nodes = history.ids.eraseDups := by
  have noStray := danglingEdges_eq_nil_iff.mp (danglingEdges_eq_nil known)
  rw [graph_nodes_eq_append, noStray, List.append_nil]
  rfl

/-- The commit of an identifier is found if there is one. -/
theorem exists_commit?
    {history : History}
    {id : String}
    (known : id ∈ history.ids) :
    ∃ commit ∈ history.commits, history.commit? id = some commit ∧ commit.id = id := by
  obtain ⟨before, commit, after, found, shape, hasId, -⟩ :=
    exists_first_commit (knows_iff.mpr known)
  exact ⟨commit, shape ▸ List.mem_append_right _ List.mem_cons_self, found, hasId⟩

/-- A commit is found by its identifier as long as no other commit has it. -/
theorem commit?_eq_some
    {history : History}
    (distinct : history.ids.Nodup)
    {commit : CommitNode}
    (member : commit ∈ history.commits) :
    history.commit? commit.id = some commit := by
  obtain ⟨found, foundMember, lookup, sameId⟩ := exists_commit? (List.mem_map_of_mem member)
  rw [lookup, List.inj_on_of_nodup_map distinct foundMember member sameId]

end History

namespace Script

/-- Commits are set side by side in the order of their creation. -/
theorem x_of_commit
    {settings : Settings}
    {script : Script}
    {position : Nat}
    {node : CommitNode}
    (found : (script.history settings).commits[position]? = some node) :
    node.x = settings.spacingX.times position := by
  rw [commits_eq_map_drawing, List.getElem?_map] at found
  obtain ⟨block, listed, rfl⟩ := Option.map_eq_some_iff.mp found
  obtain ⟨earlier, directive, later, -, drawnBy, -, counted⟩ :=
    exists_directive_of_drawing listed
  obtain ⟨id, label, isMerge, nodeShape⟩ := Layout.node_of_drawn? drawnBy
  rw [nodeShape, ← counted, ← (Layout.consistent_replay settings earlier).stepCounted]
  rfl

/-- Every edge leads to a commit whose identifier comes later in the order of creation. -/
theorem edge_precedes
    {settings : Settings}
    {script : Script}
    {edge : Edge}
    (member : edge ∈ (script.history settings).edges) :
    Graph.Precedes (script.history settings).ids edge.source edge.target := by
  obtain ⟨first, second, inFront, isSource, isTarget⟩ := positions_of_edge member
  have sourceBefore : edge.source ∈ (script.history settings).ids.take second := by
    rw [← List.getElem?_take_of_lt inFront] at isSource
    exact List.mem_of_getElem? isSource
  have targetAfter : edge.target ∈ (script.history settings).ids.drop second := by
    have atHead : ((script.history settings).ids.drop second)[0]? = some edge.target := by
      simpa using isTarget
    exact List.mem_of_getElem? atHead
  rw [Graph.Precedes, ← List.take_append_drop second (script.history settings).ids]
  exact (List.singleton_sublist.mpr sourceBefore).append
    (List.singleton_sublist.mpr targetAfter)

/-- An edge leads from an earlier commit to a later one. -/
theorem idxOf_source_lt
    {settings : Settings}
    {script : Script}
    (distinct : (script.history settings).ids.Nodup)
    {edge : Edge}
    (member : edge ∈ (script.history settings).edges) :
    (script.history settings).ids.idxOf edge.source <
      (script.history settings).ids.idxOf edge.target := by
  obtain ⟨first, second, inFront, isSource, isTarget⟩ := positions_of_edge member
  obtain ⟨firstBound, isSource⟩ := List.getElem?_eq_some_iff.mp isSource
  obtain ⟨secondBound, isTarget⟩ := List.getElem?_eq_some_iff.mp isTarget
  rw [← isSource, ← isTarget, distinct.idxOf_getElem, distinct.idxOf_getElem]
  exact inFront

/-- Among distinct identifiers and at a positive integer distance, every edge leads to the right. -/
theorem x_source_lt_x_target
    {settings : Settings}
    {script : Script}
    (distinct : (script.history settings).ids.Nodup)
    {spacing : Int}
    (integral : settings.spacingX = .int spacing)
    (positive : 0 < spacing)
    {edge : Edge}
    (member : edge ∈ (script.history settings).edges) :
    ∃ source target : CommitNode,
      (script.history settings).commit? edge.source = some source ∧
        (script.history settings).commit? edge.target = some target ∧
        ∃ left right : Int, source.x = .int left ∧ target.x = .int right ∧ left < right := by
  obtain ⟨first, second, inFront, isSource, isTarget⟩ := positions_of_edge member
  rw [History.ids, List.getElem?_map] at isSource isTarget
  obtain ⟨source, sourceFound, sourceId⟩ := Option.map_eq_some_iff.mp isSource
  obtain ⟨target, targetFound, targetId⟩ := Option.map_eq_some_iff.mp isTarget
  refine ⟨source, target, ?_, ?_, first * spacing, second * spacing, ?_, ?_, ?_⟩
  · rw [← sourceId]
    exact History.commit?_eq_some distinct (List.mem_of_getElem? sourceFound)
  · rw [← targetId]
    exact History.commit?_eq_some distinct (List.mem_of_getElem? targetFound)
  · rw [x_of_commit sourceFound, integral]
    rfl
  · rw [x_of_commit targetFound, integral]
    rfl
  · exact Int.mul_lt_mul_of_pos_right (by omega) positive

/--
No edge of a layout dangles, and every node of its graph is a commit. If no two
commits share an identifier, the graph has no cycle, its topological order lists
the identifiers of all commits, the order of creation is one as well, and every
edge leads to the right. So the command never warns of a dangling edge, and it
warns of a cycle only if an identifier is repeated.
-/
theorem layouts_have_forward_edges
    (settings : Settings)
    (script : Script) :
    (script.history settings).danglingEdges = [] ∧
      (∀ id data,
        (id, data) ∈ (script.history settings).nodes →
          ∃ commit ∈ (script.history settings).commits, data = some commit ∧ commit.id = id) ∧
      ((script.history settings).ids.Nodup →
        (script.history settings).graph.isAcyclic = true ∧
          (∃ order,
            (script.history settings).graph.topologicalOrder? = some order ∧
              order.Perm (script.history settings).ids) ∧
          (script.history settings).graph.IsTopological (script.history settings).ids ∧
          ∀ spacing : Int,
            settings.spacingX = .int spacing →
              0 < spacing →
                ∀ edge ∈ (script.history settings).edges,
                  ∃ source target : CommitNode,
                    (script.history settings).commit? edge.source = some source ∧
                      (script.history settings).commit? edge.target = some target ∧
                      ∃ left right : Int,
                        source.x = .int left ∧ target.x = .int right ∧ left < right) ∧
      ((script.history settings).warnings = "" ∨
        (script.history settings).warnings = cycleWarningLine ∧
          ¬ (script.history settings).ids.Nodup) := by
  have known :
      ∀ edge ∈ (script.history settings).edges,
        edge.source ∈ (script.history settings).ids ∧
          edge.target ∈ (script.history settings).ids :=
    (Layout.consistent_replay settings script.directives).edgesKnown
  have noneDangles := History.danglingEdges_eq_nil known
  have sameNodes := History.graph_nodes_eq known
  have sorted :
      (script.history settings).ids.Nodup →
        ∃ order,
          (script.history settings).graph.topologicalOrder? = some order ∧
            (script.history settings).graph.IsTopological order :=
    fun distinct =>
      Graph.exists_topologicalOrder (Graph.wellFormed_graph _)
        (script.history settings).ids.idxOf
        fun edge member => idxOf_source_lt distinct member
  refine ⟨noneDangles, ?_, ?_, ?_⟩
  · intro id data member
    obtain ⟨node, isNode, same⟩ := List.mem_map.mp member
    rw [sameNodes, List.mem_eraseDups] at isNode
    obtain ⟨commit, isCommit, lookup, hasId⟩ := History.exists_commit? isNode
    rw [lookup] at same
    cases same
    exact ⟨commit, isCommit, rfl, hasId⟩
  · intro distinct
    obtain ⟨order, found, topological⟩ := sorted distinct
    rw [eraseDups_eq_self distinct] at sameNodes
    refine ⟨by simp [Graph.isAcyclic, found], ⟨order, found, ?_⟩, ⟨?_, ?_⟩, ?_⟩
    · exact sameNodes ▸ topological.covers
    · rw [sameNodes]
    · exact fun edge member => edge_precedes member
    · exact fun spacing integral positive edge member =>
        x_source_lt_x_target distinct integral positive member
  · rw [History.warnings, noneDangles]
    by_cases acyclic : (script.history settings).graph.isAcyclic = true
    · left
      simp [acyclic]
    · right
      refine ⟨by simp [acyclic], fun distinct => acyclic ?_⟩
      obtain ⟨order, found, -⟩ := sorted distinct
      simp [Graph.isAcyclic, found]

end Script

end GitLanes
