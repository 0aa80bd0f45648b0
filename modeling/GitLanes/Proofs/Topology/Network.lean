import GitLanes.Proofs.Topology.Paths
import Mathlib.Algebra.BigOperators.Group.List.Lemmas
import Mathlib.Algebra.GroupWithZero.Nat
import Mathlib.Logic.Function.Basic

namespace GitLanes

/-!
# Networks

A network is built by putting in the commits of a history and then its edges,
one at a time. A node that is known is not put in again, and an edge puts in
those of its ends that are not known yet, without a commit. Neighbours are kept
in the order in which they became neighbours. What a network holds in the end is
what the graph of the history tells, and no commit or edge of it gets lost.
-/

/-- The neighbours of every node, and the edges between any two nodes. -/
structure Neighbours where
  parents : String → List String
  children : String → List String
  between : String → String → List Edge

/-- Nodes, each with the commit that it stands for, and how they are connected. -/
structure Network where
  nodes : List (String × Option CommitNode)
  neighbours : Neighbours

namespace Neighbours

/-- No node has a neighbour. -/
def none : Neighbours where
  parents := fun _ => []
  children := fun _ => []
  between := fun _ _ => []

/-- A list with an item at its end, unless the item is in it already. -/
def withItem (items : List String) (item : String) : List String :=
  if item ∈ items then items else items ++ [item]

/-- Put in an edge. -/
def connect (neighbours : Neighbours) (edge : Edge) : Neighbours where
  parents := Function.update neighbours.parents edge.target
    (withItem (neighbours.parents edge.target) edge.source)
  children := Function.update neighbours.children edge.source
    (withItem (neighbours.children edge.source) edge.target)
  between := fun source target =>
    if edge.source = source ∧ edge.target = target then
      neighbours.between source target ++ [edge]
    else
      neighbours.between source target

end Neighbours

namespace Network

/-- The network without nodes. -/
def empty : Network where
  nodes := []
  neighbours := .none

/-- Put in a node with the commit that it stands for, unless the node is known. -/
def addNode (network : Network) (id : String) (commit? : Option CommitNode) : Network :=
  if id ∈ network.nodes.map Prod.fst then
    network
  else
    { network with nodes := network.nodes ++ [(id, commit?)] }

/-- Put in a commit. -/
def addCommit (network : Network) (commit : CommitNode) : Network :=
  network.addNode commit.id (some commit)

/-- Put in an edge, with those of its ends that are not known yet. -/
def addEdge (network : Network) (edge : Edge) : Network :=
  let grown := (network.addNode edge.source none).addNode edge.target none
  { grown with neighbours := grown.neighbours.connect edge }

/-- The number of all edges, counted node by node and child by child. -/
def edgeCount (network : Network) : Nat :=
  (network.nodes.map fun node =>
    ((network.neighbours.children node.1).map fun child =>
      (network.neighbours.between node.1 child).length).sum).sum

end Network

/-- The network of a history. -/
def History.network (history : History) : Network :=
  history.edges.foldl Network.addEdge (history.commits.foldl Network.addCommit Network.empty)

/-- The edges that lead from one node to another. -/
def Graph.between (graph : Graph) (source target : String) : List Edge :=
  graph.edges.filter fun edge => edge.source == source && edge.target == target

namespace Neighbours

/-- An item is put in exactly as it is appended and dropped again where it is a duplicate. -/
theorem withItem_eraseDups
    (items : List String)
    (item : String) :
    withItem items.eraseDups item = (items ++ [item]).eraseDups := by
  simp only [withItem, eraseDups_concat, List.mem_eraseDups]

/-- Putting in edges one at a time keeps the neighbours that they make. -/
theorem foldl_connect (graph : Graph) :
    graph.edges.foldl connect none = ⟨graph.parents, graph.children, graph.between⟩ := by
  obtain ⟨nodes, edges⟩ := graph
  induction edges using List.reverseRecOn with
  | nil =>
      rfl
  | append_singleton edges edge inductionHypothesis =>
      rw [List.foldl_append, inductionHypothesis, List.foldl_cons, List.foldl_nil, connect]
      congr 1
      · funext id
        by_cases isTarget : edge.target = id
        · subst isTarget
          simp [Graph.parents, List.filter_append, withItem_eraseDups]
        · simp [Graph.parents, List.filter_append, isTarget, Ne.symm isTarget]
      · funext id
        by_cases isSource : edge.source = id
        · subst isSource
          simp [Graph.children, List.filter_append, withItem_eraseDups]
        · simp [Graph.children, List.filter_append, isSource, Ne.symm isSource]
      · funext source target
        by_cases joins : edge.source = source ∧ edge.target = target
        · simp [Graph.between, List.filter_append, joins]
        · simp [Graph.between, List.filter_append, joins]

end Neighbours

namespace Network

/-- Putting in a node leaves the neighbours as they are. -/
@[simp] theorem neighbours_addNode
    (network : Network)
    (id : String)
    (commit? : Option CommitNode) :
    (network.addNode id commit?).neighbours = network.neighbours := by
  rw [addNode]
  split <;> rfl

@[simp] theorem neighbours_addEdge
    (network : Network)
    (edge : Edge) :
    (network.addEdge edge).neighbours = network.neighbours.connect edge := by
  simp [addEdge]

theorem neighbours_foldl_addCommit
    (network : Network)
    (commits : List CommitNode) :
    (commits.foldl addCommit network).neighbours = network.neighbours := by
  induction commits generalizing network with
  | nil =>
      rfl
  | cons commit commits inductionHypothesis =>
      rw [List.foldl_cons, inductionHypothesis, addCommit, neighbours_addNode]

/-- Putting in edges connects their ends, one edge after the other. -/
theorem neighbours_foldl_addEdge
    (network : Network)
    (edges : List Edge) :
    (edges.foldl addEdge network).neighbours =
      edges.foldl Neighbours.connect network.neighbours := by
  induction edges generalizing network with
  | nil =>
      rfl
  | cons edge edges inductionHypothesis =>
      rw [List.foldl_cons, inductionHypothesis, neighbours_addEdge, List.foldl_cons]

/-- The neighbours in the network are those in the graph, in their order. -/
theorem neighbours_network (history : History) :
    history.network.neighbours =
      ⟨history.graph.parents, history.graph.children, history.graph.between⟩ := by
  rw [History.network, neighbours_foldl_addEdge, neighbours_foldl_addCommit]
  exact Neighbours.foldl_connect history.graph

/-- The nodes of a network bear some names, once each, and stand for what these names mean. -/
def Lists (network : Network) (names : List String) (meaning : String → Option CommitNode) : Prop :=
  network.nodes = names.eraseDups.map fun id => (id, meaning id)

section

variable {network : Network} {names : List String} {meaning : String → Option CommitNode}

/-- What a network lists depends on the meaning of its names alone. -/
theorem Lists.congr
    (lists : network.Lists names meaning)
    {other : String → Option CommitNode}
    (alike : ∀ id ∈ names, meaning id = other id) :
    network.Lists names other := by
  rw [Lists, lists]
  refine List.map_congr_left fun id member => ?_
  rw [alike id (List.mem_eraseDups.mp member)]

/-- A node that is put in is listed last, if it is new. -/
theorem Lists.addNode
    (lists : network.Lists names meaning)
    {id : String}
    {commit? : Option CommitNode}
    (means : id ∉ names → meaning id = commit?) :
    (network.addNode id commit?).Lists (names ++ [id]) meaning := by
  have isKnown : id ∈ network.nodes.map Prod.fst ↔ id ∈ names := by
    rw [lists, List.map_map]
    simp
  rw [Lists, eraseDups_concat, Network.addNode]
  by_cases known : id ∈ names
  · rw [if_pos (isKnown.mpr known), if_pos known]
    exact lists
  · rw [if_neg (mt isKnown.mp known), if_neg known, List.map_append, List.map_singleton,
      means known, ← lists]

end

/-- A network of commits lists each identifier once, with its first commit. -/
theorem lists_foldl_addCommit (commits : List CommitNode) :
    (commits.foldl addCommit empty).Lists (commits.map CommitNode.id) fun id =>
      commits.find? fun commit => commit.id == id := by
  induction commits using List.reverseRecOn with
  | nil =>
      rfl
  | append_singleton commits commit inductionHypothesis =>
      rw [List.foldl_append, List.map_append]
      refine Lists.addNode (inductionHypothesis.congr fun id member => ?_) fun unknown => ?_
      · obtain ⟨known, isCommit, rfl⟩ := List.mem_map.mp member
        have found : (commits.find? fun commit => commit.id == known.id).isSome :=
          List.find?_isSome.mpr ⟨known, isCommit, beq_self_eq_true _⟩
        rw [List.find?_append, Option.or_of_isSome found]
      · have missing : (commits.find? fun other => other.id == commit.id) = none := by
          refine List.find?_eq_none.mpr fun other isCommit => ?_
          rw [beq_iff_eq]
          exact fun same => unknown (same ▸ List.mem_map_of_mem isCommit)
        rw [List.find?_append, missing, Option.none_or]
        exact List.find?_cons_of_pos (beq_self_eq_true _)

/-- An end of an edge that is new stands for no commit, as all commits were put in before. -/
theorem lists_foldl_addEdge
    {network : Network}
    {names : List String}
    {meaning : String → Option CommitNode}
    (lists : network.Lists names meaning)
    (means : ∀ id, id ∉ names → meaning id = none)
    (edges : List Edge) :
    (edges.foldl addEdge network).Lists (names ++ edges.flatMap Edge.ends) meaning := by
  induction edges generalizing network names with
  | nil =>
      rw [List.flatMap_nil, List.append_nil]
      exact lists
  | cons edge edges inductionHypothesis =>
      have withSource := lists.addNode (means edge.source)
      have meansAfter (id : String) (unknown : id ∉ names ++ [edge.source]) : meaning id = none :=
        means id fun member => unknown (List.mem_append_left _ member)
      have withEnds := withSource.addNode (meansAfter edge.target)
      rw [List.foldl_cons, List.flatMap_cons, ← List.append_assoc]
      have grown : (network.addEdge edge).Lists (names ++ edge.ends) meaning := by
        rw [Edge.ends, List.append_cons]
        exact withEnds
      exact inductionHypothesis grown fun id unknown =>
        means id fun member => unknown (List.mem_append_left _ member)

/-- The nodes of the network are those of the history, in their order. -/
theorem nodes_network (history : History) :
    history.network.nodes = history.nodes := by
  refine lists_foldl_addEdge (lists_foldl_addCommit history.commits) (fun id unknown => ?_) _
  refine List.find?_eq_none.mpr fun commit isCommit => ?_
  rw [beq_iff_eq]
  exact fun same => unknown (same ▸ List.mem_map_of_mem isCommit)

end Network

/-- Counting items key by key counts them all, if every item has one of the keys. -/
theorem sum_length_filter_eq_length
    {α : Type}
    {keys : List String}
    (distinct : keys.Nodup)
    (keyOf : α → String)
    {items : List α}
    (covered : ∀ item ∈ items, keyOf item ∈ keys) :
    (keys.map fun key => (items.filter fun item => keyOf item == key).length).sum =
      items.length := by
  induction items with
  | nil =>
      simp
  | cons item items inductionHypothesis =>
      rw [List.forall_mem_cons] at covered
      have oneMore (key : String) :
          ((item :: items).filter fun item => keyOf item == key).length =
            (if key = keyOf item then 1 else 0) +
              (items.filter fun item => keyOf item == key).length := by
        by_cases same : key = keyOf item
        · simp [same, Nat.add_comm]
        · simp [same, Ne.symm same]
      have once : (keys.map fun key => if key = keyOf item then 1 else 0).sum = 1 := by
        calc (keys.map fun key => if key = keyOf item then 1 else 0).sum
          _ = (keys.filter fun key => key == keyOf item).length := by
              simp [List.sum_map_ite, beq_eq_decide]
          _ = keys.count (keyOf item) := List.countP_eq_length_filter.symm
          _ = 1 := List.count_eq_one_of_mem distinct covered.1
      simp only [oneMore, List.sum_map_add, once, inductionHypothesis covered.2, List.length_cons,
        Nat.add_comm]

/-- Every edge is counted, under its source and its target. -/
theorem Network.edgeCount_network (history : History) :
    history.network.edgeCount = history.edges.length := by
  have wellFormed := Graph.wellFormed_graph history
  have ofSource (source : String) :
      ((history.graph.children source).map fun child =>
          (history.graph.between source child).length).sum =
        (history.edges.filter fun edge => edge.source == source).length := by
    have distinct : (history.graph.children source).Nodup := nodup_eraseDups _
    have covered :
        ∀ edge ∈ history.edges.filter fun edge => edge.source == source,
          edge.target ∈ history.graph.children source := by
      intro edge member
      obtain ⟨isEdge, isSource⟩ := List.mem_filter.mp member
      exact Graph.mem_children_iff.mpr ⟨edge, isEdge, beq_iff_eq.mp isSource, rfl⟩
    rw [← sum_length_filter_eq_length distinct Edge.target covered]
    simp only [Graph.between, List.filter_filter, Bool.and_comm]
    rfl
  rw [edgeCount, nodes_network, neighbours_network]
  simp only [ofSource, History.nodes, List.map_map, Function.comp_def]
  exact sum_length_filter_eq_length wellFormed.distinct Edge.source fun edge isEdge =>
    (wellFormed.closed edge isEdge).1

end GitLanes
