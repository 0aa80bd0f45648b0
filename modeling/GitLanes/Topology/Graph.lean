import GitLanes.History

namespace GitLanes

/-!
# The graph of a history

A history is a directed graph with parallel edges. Its nodes are the
identifiers of the commits by first occurrence, and then the ends of edges that
no commit has, by first appearance. Neighbours are listed once, in the order of
the first edge that makes them neighbours.
-/

/-- The identifiers and the edges of a history. -/
structure Graph where
  nodes : List String
  edges : List Edge
  deriving Repr, DecidableEq

/-- The two ends of an edge. -/
def Edge.ends (edge : Edge) : List String :=
  [edge.source, edge.target]

/-- The graph of a history. -/
def History.graph (history : History) : Graph where
  nodes := (history.commits.map CommitNode.id ++ history.edges.flatMap Edge.ends).eraseDups
  edges := history.edges

/-- The nodes of a history, each with the first commit it identifies. -/
def History.nodes (history : History) : List (String × Option CommitNode) :=
  history.graph.nodes.map fun id => (id, history.commit? id)

namespace Graph

/-- The number of nodes. -/
def nodeCount (graph : Graph) : Nat :=
  graph.nodes.length

/-- The number of edges, parallel ones counted apart. -/
def edgeCount (graph : Graph) : Nat :=
  graph.edges.length

/-- The nodes from which an edge leads to a node. -/
def parents (graph : Graph) (id : String) : List String :=
  ((graph.edges.filter fun edge => edge.target == id).map Edge.source).eraseDups

/-- The nodes to which an edge leads from a node. -/
def children (graph : Graph) (id : String) : List String :=
  ((graph.edges.filter fun edge => edge.source == id).map Edge.target).eraseDups

end Graph

end GitLanes
