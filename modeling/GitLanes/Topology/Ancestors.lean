import GitLanes.Topology.Graph

namespace GitLanes.Graph

/-!
# Ancestors

The ancestors of a node are found by walking edges backwards. Every node that
is met leaves the unvisited ones and waits its turn, so the nodes that are
unvisited or waiting grow fewer with every step, on graphs with cycles as well.
-/

/-- The parents of a node among some nodes. -/
def parentsAmong (graph : Graph) (id : String) (nodes : List String) : List String :=
  let parents := graph.parents id
  nodes.filter fun node => parents.contains node

/-- Some nodes without the parents of a node. -/
def withoutParents (graph : Graph) (id : String) (nodes : List String) : List String :=
  let parents := graph.parents id
  nodes.filter fun node => !parents.contains node

/-- Taking the parents of a node out of some nodes splits them in two. -/
theorem length_parentsAmong_add_length_withoutParents
    (graph : Graph)
    (id : String)
    (nodes : List String) :
    (graph.parentsAmong id nodes).length + (graph.withoutParents id nodes).length =
      nodes.length := by
  simp only [parentsAmong, withoutParents, ← List.countP_eq_length_filter]
  rw [List.length_eq_countP_add_countP fun node => (graph.parents id).contains node]
  simp

/-- The unvisited nodes that can be reached backwards from the waiting ones. -/
def backwardReach (graph : Graph) : (unvisited waiting : List String) → List String
  | _, [] => []
  | unvisited, id :: waiting =>
      graph.parentsAmong id unvisited ++
        graph.backwardReach (graph.withoutParents id unvisited)
          (waiting ++ graph.parentsAmong id unvisited)
termination_by unvisited waiting => unvisited.length + waiting.length
decreasing_by
  have parts := graph.length_parentsAmong_add_length_withoutParents id unvisited
  simp only [List.length_append, List.length_cons]
  omega

/-- The nodes from which a path leads to a node, itself left out, in sorted order. -/
def ancestors (graph : Graph) (id : String) : List String :=
  (graph.backwardReach (graph.nodes.filter fun node => node != id) [id]).mergeSort
    fun left right => decide (left ≤ right)

end GitLanes.Graph
