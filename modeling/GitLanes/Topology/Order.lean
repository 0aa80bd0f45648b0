import GitLanes.Topology.Graph

namespace GitLanes.Graph

/-!
# Topological order

Nodes are listed in generations. The first generation is the nodes without an
incoming edge; each next one is the nodes whose last unlisted parent was listed
in the generation before, in the order in which that happened. A graph has a
topological order when every node is listed at last.
-/

/-- The number of edges into a node from nodes that are not listed yet. -/
def openDegree (graph : Graph) (listed : List String) (id : String) : Nat :=
  graph.edges.countP fun edge => edge.target == id && !listed.contains edge.source

/-- The nodes that a generation frees, when it is listed node by node. -/
def freed (graph : Graph) (listed : List String) : List String → List String
  | [] => []
  | id :: generation =>
      let listed := id :: listed
      ((graph.children id).filter fun child => graph.openDegree listed child == 0) ++
        graph.freed listed generation

/-- The nodes without an incoming edge. -/
def roots (graph : Graph) : List String :=
  graph.nodes.filter fun id => graph.openDegree [] id == 0

/--
A generation and all that follow it.

The listing ends with the first generation that frees no waiting node.
-/
def generations
    (graph : Graph)
    (listed generation waiting : List String) :
    List String :=
  let next := graph.freed listed generation
  let stillWaiting := waiting.removeAll next
  if stillWaiting.length < waiting.length then
    generation ++ graph.generations (generation.reverse ++ listed) next stillWaiting
  else
    generation
termination_by waiting.length

/-- The nodes that can be listed after all their parents. -/
def sortable (graph : Graph) : List String :=
  graph.generations [] graph.roots (graph.nodes.removeAll graph.roots)

/-- All nodes with every edge leading forward, unless there is a cycle. -/
def topologicalOrder? (graph : Graph) : Option (List String) :=
  if graph.sortable.length = graph.nodes.length then some graph.sortable else none

/-- Whether no node can be reached from itself. -/
def isAcyclic (graph : Graph) : Bool :=
  graph.topologicalOrder?.isSome

end GitLanes.Graph
