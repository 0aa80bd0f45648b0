import GitLanes.Proofs.Appearance
import GitLanes.Topology.Ancestors
import Mathlib.Logic.Relation

namespace GitLanes

/-!
# Paths and ancestors

A path is a chain of edges, each of which leads on from the end of the one
before. Walking backwards from a node finds exactly the other nodes from which a
path leads to it, on any graph whose edges end at its nodes.
-/

namespace Graph

/-- Whether an edge leads from one node to another. -/
def Leads (graph : Graph) (source target : String) : Prop :=
  ∃ edge ∈ graph.edges, edge.source = source ∧ edge.target = target

/-- A graph that names each node once, and among them the ends of all its edges. -/
structure WellFormed (graph : Graph) : Prop where
  distinct : graph.nodes.Nodup
  closed : ∀ edge ∈ graph.edges, edge.source ∈ graph.nodes ∧ edge.target ∈ graph.nodes

/-- The graph of a history is well formed, even if edges dangle. -/
theorem wellFormed_graph (history : History) : history.graph.WellFormed where
  distinct := nodup_eraseDups _
  closed := by
    intro edge member
    have ends :
        ∀ id ∈ edge.ends, id ∈ history.graph.nodes := by
      intro id isEnd
      rw [History.graph, List.mem_eraseDups, List.mem_append]
      exact Or.inr (List.mem_flatMap.mpr ⟨edge, member, isEnd⟩)
    exact ⟨ends _ (by simp [Edge.ends]), ends _ (by simp [Edge.ends])⟩

/-- The parents of a node are those that lead to it. -/
theorem mem_parents_iff
    {graph : Graph}
    {source target : String} :
    source ∈ graph.parents target ↔ graph.Leads source target := by
  rw [parents, List.mem_eraseDups, List.mem_map]
  constructor
  · intro isParent
    obtain ⟨edge, member, isSource⟩ := isParent
    obtain ⟨listed, isTarget⟩ := List.mem_filter.mp member
    exact ⟨edge, listed, isSource, beq_iff_eq.mp isTarget⟩
  · intro leads
    obtain ⟨edge, listed, isSource, isTarget⟩ := leads
    exact ⟨edge, List.mem_filter.mpr ⟨listed, beq_iff_eq.mpr isTarget⟩, isSource⟩

/-- The children of a node are those that it leads to. -/
theorem mem_children_iff
    {graph : Graph}
    {source target : String} :
    target ∈ graph.children source ↔ graph.Leads source target := by
  rw [children, List.mem_eraseDups, List.mem_map]
  constructor
  · intro isChild
    obtain ⟨edge, member, isTarget⟩ := isChild
    obtain ⟨listed, isSource⟩ := List.mem_filter.mp member
    exact ⟨edge, listed, beq_iff_eq.mp isSource, isTarget⟩
  · intro leads
    obtain ⟨edge, listed, isSource, isTarget⟩ := leads
    exact ⟨edge, List.mem_filter.mpr ⟨listed, beq_iff_eq.mpr isSource⟩, isTarget⟩

theorem mem_parentsAmong_iff
    {graph : Graph}
    {id node : String}
    {nodes : List String} :
    node ∈ graph.parentsAmong id nodes ↔ node ∈ nodes ∧ graph.Leads node id := by
  rw [parentsAmong, List.mem_filter, List.contains_iff_mem, mem_parents_iff]

theorem mem_withoutParents_iff
    {graph : Graph}
    {id node : String}
    {nodes : List String} :
    node ∈ graph.withoutParents id nodes ↔ node ∈ nodes ∧ ¬ graph.Leads node id := by
  rw [withoutParents, List.mem_filter, Bool.not_eq_true', ← Bool.not_eq_true,
    List.contains_iff_mem, mem_parents_iff]

/-- Whatever is reached backwards was unvisited and has a path to a waiting node. -/
theorem path_of_mem_backwardReach
    {graph : Graph}
    {unvisited waiting : List String}
    {node : String}
    (reached : node ∈ graph.backwardReach unvisited waiting) :
    node ∈ unvisited ∧ ∃ target ∈ waiting, Relation.TransGen graph.Leads node target := by
  fun_induction graph.backwardReach unvisited waiting with
  | case1 =>
      cases reached
  | case2 unvisited id waiting inductionHypothesis =>
      rcases List.mem_append.mp reached with parent | further
      · obtain ⟨member, leads⟩ := mem_parentsAmong_iff.mp parent
        exact ⟨member, id, by simp, .single leads⟩
      · obtain ⟨member, target, isWaiting, path⟩ := inductionHypothesis further
        refine ⟨(mem_withoutParents_iff.mp member).1, ?_⟩
        rcases List.mem_append.mp isWaiting with old | parent
        · exact ⟨target, by simp [old], path⟩
        · exact ⟨id, by simp, path.tail (mem_parentsAmong_iff.mp parent).2⟩

/-- An edge that leaves an unvisited node. -/
def LeadsFrom (graph : Graph) (unvisited : List String) (source target : String) : Prop :=
  source ∈ unvisited ∧ graph.Leads source target

/--
Visiting a waiting node shortens the paths that lead to it: a path through
unvisited nodes now ends at a parent of that node at the latest.
-/
theorem path_after_visit
    {graph : Graph}
    {unvisited waiting : List String}
    {id node target : String}
    (path : Relation.TransGen (graph.LeadsFrom unvisited) node target)
    (isWaiting : target ∈ id :: waiting)
    (remains : node ∈ graph.withoutParents id unvisited) :
    ∃ next ∈ waiting ++ graph.parentsAmong id unvisited,
      Relation.TransGen (graph.LeadsFrom (graph.withoutParents id unvisited)) node next := by
  induction path using Relation.TransGen.head_induction_on with
  | single edge =>
      rename_i node
      rcases List.mem_cons.mp isWaiting with rfl | old
      · exact ((mem_withoutParents_iff.mp remains).2 edge.2).elim
      · exact ⟨target, List.mem_append_left _ old, .single ⟨remains, edge.2⟩⟩
  | head edge path inductionHypothesis =>
      rename_i node middle
      have unvisitedMiddle : middle ∈ unvisited := by
        cases path using Relation.TransGen.head_induction_on with
        | single next => exact next.1
        | head next _ _ => exact next.1
      -- The visit removes only parents of the visited node, at the first of which the path may end.
      by_cases parent : graph.Leads middle id
      · have isParent : middle ∈ graph.parentsAmong id unvisited :=
          mem_parentsAmong_iff.mpr ⟨unvisitedMiddle, parent⟩
        exact ⟨middle, List.mem_append_right _ isParent, .single ⟨remains, edge.2⟩⟩
      · obtain ⟨next, member, rest⟩ :=
          inductionHypothesis (mem_withoutParents_iff.mpr ⟨unvisitedMiddle, parent⟩)
        exact ⟨next, member, .head ⟨remains, edge.2⟩ rest⟩

/-- Every path through unvisited nodes to a waiting one is found backwards. -/
theorem mem_backwardReach_of_path
    {graph : Graph}
    {unvisited waiting : List String}
    {node target : String}
    (isWaiting : target ∈ waiting)
    (path : Relation.TransGen (graph.LeadsFrom unvisited) node target) :
    node ∈ graph.backwardReach unvisited waiting := by
  fun_induction graph.backwardReach unvisited waiting generalizing target with
  | case1 =>
      cases isWaiting
  | case2 unvisited id waiting inductionHypothesis =>
      have unvisitedNode : node ∈ unvisited := by
        cases path using Relation.TransGen.head_induction_on with
        | single edge => exact edge.1
        | head edge _ _ => exact edge.1
      rw [List.mem_append]
      by_cases parent : graph.Leads node id
      · exact Or.inl (mem_parentsAmong_iff.mpr ⟨unvisitedNode, parent⟩)
      · obtain ⟨next, member, rest⟩ :=
          path_after_visit path isWaiting (mem_withoutParents_iff.mpr ⟨unvisitedNode, parent⟩)
        exact Or.inr (inductionHypothesis member rest)

/-- A path to a node from another one reaches it from nodes other than itself. -/
theorem path_from_others
    {graph : Graph}
    (wellFormed : graph.WellFormed)
    {source target : String}
    (path : Relation.TransGen graph.Leads source target)
    (differs : source ≠ target) :
    Relation.TransGen (graph.LeadsFrom (graph.nodes.filter fun node => node != target))
      source target := by
  have unvisited
      {first second : String}
      (leads : graph.Leads first second)
      (differs : first ≠ target) :
      first ∈ graph.nodes.filter fun node => node != target := by
    obtain ⟨edge, member, rfl, -⟩ := leads
    exact List.mem_filter.mpr ⟨(wellFormed.closed edge member).1, bne_iff_ne.mpr differs⟩
  induction path using Relation.TransGen.head_induction_on with
  | single leads =>
      exact .single ⟨unvisited leads differs, leads⟩
  | @head first middle leads path inductionHypothesis =>
      by_cases arrived : middle = target
      · subst middle
        exact .single ⟨unvisited leads differs, leads⟩
      · exact .head ⟨unvisited leads differs, leads⟩ (inductionHypothesis arrived)

/-- The ancestors of a node are the other nodes from which a path leads to it. -/
theorem mem_ancestors_iff
    {graph : Graph}
    (wellFormed : graph.WellFormed)
    {source target : String} :
    source ∈ graph.ancestors target ↔
      source ≠ target ∧ Relation.TransGen graph.Leads source target := by
  rw [ancestors, List.mem_mergeSort]
  constructor
  · intro reached
    obtain ⟨unvisited, waiting, isWaiting, path⟩ := path_of_mem_backwardReach reached
    rw [List.mem_singleton.mp isWaiting] at path
    exact ⟨bne_iff_ne.mp (List.mem_filter.mp unvisited).2, path⟩
  · rintro ⟨differs, path⟩
    exact mem_backwardReach_of_path (List.mem_singleton_self target)
      (path_from_others wellFormed path differs)

end Graph

end GitLanes
