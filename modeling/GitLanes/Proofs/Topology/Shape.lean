import GitLanes.Topology.Ancestors
import GitLanes.Topology.Order

namespace GitLanes

/-!
# The shape of a graph

What a graph is asked for depends on its nodes and on the ends of its edges
alone. Taking the colors off the edges changes no neighbour, no ancestor and no
place in the topological order.
-/

/-- An edge without its color. -/
def Edge.bare (edge : Edge) : Edge :=
  { edge with color := "" }

namespace Graph

/-- A graph whose edges have no color. -/
def bare (graph : Graph) : Graph :=
  { graph with edges := graph.edges.map Edge.bare }

@[simp] theorem nodes_bare (graph : Graph) :
    graph.bare.nodes = graph.nodes :=
  rfl

@[simp] theorem nodeCount_bare (graph : Graph) :
    graph.bare.nodeCount = graph.nodeCount :=
  rfl

@[simp] theorem edgeCount_bare (graph : Graph) :
    graph.bare.edgeCount = graph.edgeCount :=
  List.length_map _

/-- The colors and the kinds of edges do not matter to the parents of a node. -/
@[simp] theorem parents_bare
    (graph : Graph)
    (id : String) :
    graph.bare.parents id = graph.parents id := by
  simp only [parents, bare, List.filter_map, List.map_map]
  rfl

/-- The colors and the kinds of edges do not matter to the children of a node. -/
@[simp] theorem children_bare
    (graph : Graph)
    (id : String) :
    graph.bare.children id = graph.children id := by
  simp only [children, bare, List.filter_map, List.map_map]
  rfl

@[simp] theorem parentsAmong_bare
    (graph : Graph)
    (id : String)
    (nodes : List String) :
    graph.bare.parentsAmong id nodes = graph.parentsAmong id nodes := by
  simp only [parentsAmong, parents_bare]

@[simp] theorem withoutParents_bare
    (graph : Graph)
    (id : String)
    (nodes : List String) :
    graph.bare.withoutParents id nodes = graph.withoutParents id nodes := by
  simp only [withoutParents, parents_bare]

/-- A backward search meets the same nodes in the same order. -/
theorem backwardReach_bare
    (graph : Graph)
    (unvisited waiting : List String) :
    graph.bare.backwardReach unvisited waiting = graph.backwardReach unvisited waiting := by
  induction unvisited, waiting using backwardReach.induct graph with
  | case1 unvisited =>
      simp only [backwardReach]
  | case2 unvisited id waiting inductionHypothesis =>
      simp only [backwardReach, parentsAmong_bare, withoutParents_bare, inductionHypothesis]

/-- The ancestors of a node are the same. -/
theorem ancestors_bare
    (graph : Graph)
    (id : String) :
    graph.bare.ancestors id = graph.ancestors id := by
  simp only [ancestors, backwardReach_bare, nodes_bare]

/-- The number of open edges into a node is the same. -/
@[simp] theorem openDegree_bare
    (graph : Graph)
    (listed : List String)
    (id : String) :
    graph.bare.openDegree listed id = graph.openDegree listed id := by
  simp only [openDegree, bare, List.countP_map]
  rfl

/-- A generation frees the same nodes in the same order. -/
theorem freed_bare
    (graph : Graph)
    (listed generation : List String) :
    graph.bare.freed listed generation = graph.freed listed generation := by
  induction generation generalizing listed with
  | nil =>
      rfl
  | cons id generation inductionHypothesis =>
      simp only [freed, children_bare, openDegree_bare, inductionHypothesis]

/-- The generations are the same. -/
theorem generations_bare
    (graph : Graph)
    (listed generation waiting : List String) :
    graph.bare.generations listed generation waiting =
      graph.generations listed generation waiting := by
  fun_induction graph.generations listed generation waiting with
  | case1 listed generation waiting next stillWaiting shorter inductionHypothesis =>
      simp only [List.unattach_reverse, List.unattach_attach] at inductionHypothesis
      rw [generations, freed_bare]
      exact (if_pos shorter).trans (congrArg (generation ++ ·) inductionHypothesis)
  | case2 listed generation waiting next stillWaiting notShorter =>
      rw [generations, freed_bare]
      exact if_neg notShorter

/-- The topological order is the same, or there is none in either graph. -/
theorem topologicalOrder?_bare (graph : Graph) :
    graph.bare.topologicalOrder? = graph.topologicalOrder? := by
  have sameRoots : graph.bare.roots = graph.roots := by
    simp only [roots, nodes_bare, openDegree_bare]
  rw [topologicalOrder?, topologicalOrder?, sortable, sortable, sameRoots, generations_bare]
  rfl

end Graph

end GitLanes
