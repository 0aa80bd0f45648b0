import GitLanes.Proofs.Topology.Countdown

namespace GitLanes

/-!
# Order and cycles

A history can be sorted exactly if no path of edges leads back to where it
started, whatever its commits and edges are: repeated identifiers, edges that
lead nowhere, parallel edges and edges from a commit to itself. What the sorting
gives then is every node once, each behind all its parents.
-/

/-- The nodes of a history are the identifiers of its commits and the ends of its edges. -/
theorem History.mem_graph_nodes_iff
    {history : History}
    {id : String} :
    id ∈ history.graph.nodes ↔
      (∃ commit ∈ history.commits, commit.id = id) ∨
        ∃ edge ∈ history.edges, id = edge.source ∨ id = edge.target := by
  rw [graph, List.mem_eraseDups, List.mem_append, List.mem_map, List.mem_flatMap]
  simp only [Edge.ends, List.mem_pair]

namespace Graph

/-- In a list without repetition, what stands before has the smaller position. -/
theorem idxOf_lt_of_precedes
    {order : List String}
    (distinct : order.Nodup)
    {source target : String}
    (precedes : Precedes order source target) :
    order.idxOf source < order.idxOf target := by
  have increasing : order.Pairwise fun left right => order.idxOf left < order.idxOf right := by
    rw [List.pairwise_iff_getElem]
    intro first second firstBound secondBound inFront
    rwa [distinct.idxOf_getElem, distinct.idxOf_getElem]
  have pair : [source, target].Pairwise fun left right => order.idxOf left < order.idxOf right :=
    List.Pairwise.sublist precedes increasing
  exact List.rel_of_pairwise_cons pair (List.mem_singleton_self target)

/-- An order that is found is a topological one. -/
theorem isTopological_of_topologicalOrder?
    {graph : Graph}
    (wellFormed : graph.WellFormed)
    {order : List String}
    (found : graph.topologicalOrder? = some order) :
    graph.IsTopological order := by
  unfold topologicalOrder? at found
  split at found
  · rename_i complete
    cases found
    exact isTopological_sortable wellFormed complete
  · contradiction

/-- A topological order lists no node twice. -/
theorem IsTopological.nodup
    {graph : Graph}
    {order : List String}
    (topological : graph.IsTopological order)
    (wellFormed : graph.WellFormed) :
    order.Nodup :=
  topological.covers.nodup_iff.mpr wellFormed.distinct

/-- In a topological order every edge leads to a later position. -/
theorem IsTopological.idxOf_lt
    {graph : Graph}
    {order : List String}
    (topological : graph.IsTopological order)
    (wellFormed : graph.WellFormed)
    {edge : Edge}
    (member : edge ∈ graph.edges) :
    order.idxOf edge.source < order.idxOf edge.target :=
  idxOf_lt_of_precedes (topological.nodup wellFormed) (topological.forward edge member)

/-- The test for cycles passes exactly the graphs that have none. -/
theorem isAcyclic_iff
    {graph : Graph}
    (wellFormed : graph.WellFormed) :
    graph.isAcyclic = true ↔ graph.Acyclic := by
  rw [isAcyclic, Option.isSome_iff_exists]
  constructor
  · rintro ⟨order, found⟩
    have topological := isTopological_of_topologicalOrder? wellFormed found
    exact acyclic_of_increasing order.idxOf fun edge member =>
      topological.idxOf_lt wellFormed member
  · intro acyclic
    obtain ⟨order, found, -⟩ := acyclic.exists_topologicalOrder wellFormed
    exact ⟨order, found⟩

end Graph

/--
A history has a topological order exactly if it passes the test for cycles, and
that is exactly if no path of edges leads from a node to itself. The order is
the one that counting down open edges gives. It lists the identifier of every
commit and every end of an edge once, the source of each edge before its target.
-/
theorem History.is_sortable_iff_acyclic (history : History) :
    (history.graph.topologicalOrder?.isSome = true ↔ history.graph.isAcyclic = true) ∧
      (history.graph.isAcyclic = true ↔
        ∀ id, ¬ Relation.TransGen history.graph.Leads id id) ∧
      history.graph.topologicalOrder? = history.graph.countedOrder? ∧
      ∀ order,
        history.graph.topologicalOrder? = some order →
          order.Nodup ∧
            (∀ id,
              id ∈ order ↔
                (∃ commit ∈ history.commits, commit.id = id) ∨
                  ∃ edge ∈ history.edges, id = edge.source ∨ id = edge.target) ∧
            ∀ edge ∈ history.edges, order.idxOf edge.source < order.idxOf edge.target := by
  have wellFormed := Graph.wellFormed_graph history
  refine ⟨Iff.rfl, Graph.isAcyclic_iff wellFormed, (Graph.countedOrder?_eq wellFormed).symm, ?_⟩
  intro order found
  have topological := Graph.isTopological_of_topologicalOrder? wellFormed found
  refine ⟨topological.nodup wellFormed, fun id => ?_, fun edge member => ?_⟩
  · rw [topological.covers.mem_iff, mem_graph_nodes_iff]
  · exact topological.idxOf_lt wellFormed member

end GitLanes
