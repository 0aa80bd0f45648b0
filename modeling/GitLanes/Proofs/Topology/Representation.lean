import GitLanes.Proofs.Topology.Network
import GitLanes.Proofs.Topology.Nodes
import Mathlib.Data.Finset.Card
import Mathlib.Tactic.TFAE

namespace GitLanes

/-!
# What a graph shows of its history

A graph lists nodes and neighbours where a history mentions them first, as a
network does that is built from the history one commit and one edge at a time.
Whether an edge dangles shows in the nodes alone: then some node has no commit,
and there are more nodes than different identifiers.
-/

namespace History

variable {history : History}

/-- There are as many identifiers as are listed once each. -/
theorem card_ids_eq_length (history : History) :
    (history.commits.map CommitNode.id).toFinset.card = history.distinctIds.length := by
  have sameMembers :
      (history.commits.map CommitNode.id).toFinset = history.distinctIds.toFinset := by
    ext id
    rw [List.mem_toFinset, List.mem_toFinset, distinctIds, List.mem_eraseDups]
  rw [sameMembers]
  exact List.toFinset_card_of_nodup (nodup_eraseDups _)

/-- There are as many nodes as identifiers exactly if there are no stray ends. -/
theorem nodeCount_eq_card_iff :
    history.graph.nodeCount = (history.commits.map CommitNode.id).toFinset.card ↔
      history.strayEnds = [] := by
  rw [Graph.nodeCount, graph_nodes_eq_append, List.length_append, card_ids_eq_length,
    Nat.add_eq_left, List.length_eq_zero_iff]

/-- An edge dangles exactly if the nodes show it. -/
theorem danglingEdges_tfae (history : History) :
    List.TFAE [
      history.danglingEdges = [],
      ∀ node ∈ history.nodes, node.2.isSome = true,
      history.graph.nodeCount = (history.commits.map CommitNode.id).toFinset.card] := by
  tfae_have 1 ↔ 2 := danglingEdges_eq_nil_iff.trans forall_isSome_iff.symm
  tfae_have 1 ↔ 3 := danglingEdges_eq_nil_iff.trans nodeCount_eq_card_iff.symm
  tfae_finish

/-- The identifiers are listed by their first commit. -/
theorem listedByFirst_distinctIds (history : History) :
    ListedByFirst (fun commit id => commit.id == id) history.commits history.distinctIds := by
  have listed := listedByFirst_eraseDups (fun _ => true) CommitNode.id history.commits
  simp only [List.filter_true, Bool.and_true] at listed
  exact listed

/-- The stray ends are listed by the first edge that has them. -/
theorem listedByFirst_strayEnds (history : History) :
    ListedByFirst (fun endpoint id => endpoint == id && !history.knows endpoint)
      (history.edges.flatMap Edge.ends) history.strayEnds := by
  have listed := listedByFirst_eraseDups (fun endpoint => !history.knows endpoint) id
    (history.edges.flatMap Edge.ends)
  rwa [List.map_id] at listed

/--
The graph of a history, asked for nodes and neighbours, tells what a network
holds that was built from the history one commit and one edge at a time. It
loses nothing: the nodes are the identifiers of the commits by first occurrence,
each with the first commit that has it, and then the ends of edges that are no
such identifiers by first appearance, the source of an edge before its target.
Every edge is counted, and parents and children are listed once each, in the
order of the first edge between the two. No edge dangles exactly if every node
has a commit, and exactly if there are as many nodes as different identifiers.
-/
theorem graph_represents_history (history : History) :
    history.network =
        ⟨history.nodes,
          ⟨history.graph.parents, history.graph.children, history.graph.between⟩⟩ ∧
      (history.nodes.map Prod.fst).Nodup ∧
      (∃ known stray,
        history.nodes =
            known.map (fun id => (id, history.commit? id)) ++ stray.map (fun id => (id, none)) ∧
          ListedByFirst (fun commit id => commit.id == id) history.commits known ∧
          ListedByFirst (fun endpoint id => endpoint == id && !history.knows endpoint)
            (history.edges.flatMap Edge.ends) stray ∧
          ∀ id ∈ known,
            ∃ before commit after,
              history.commit? id = some commit ∧
                history.commits = before ++ commit :: after ∧
                commit.id = id ∧
                ∀ earlier ∈ before, earlier.id ≠ id) ∧
      history.network.edgeCount = history.edges.length ∧
      history.graph.edgeCount = history.edges.length ∧
      (∀ source target,
        (source ∈ history.graph.parents target ↔ target ∈ history.graph.children source) ∧
          (target ∈ history.graph.children source ↔
            ∃ edge ∈ history.edges, edge.source = source ∧ edge.target = target)) ∧
      (∀ id,
        ListedByFirst (fun edge source => edge.source == source && edge.target == id)
            history.edges (history.graph.parents id) ∧
          ListedByFirst (fun edge target => edge.target == target && edge.source == id)
            history.edges (history.graph.children id)) ∧
      List.TFAE [
        history.danglingEdges = [],
        ∀ node ∈ history.nodes, node.2.isSome = true,
        history.graph.nodeCount = (history.commits.map CommitNode.id).toFinset.card] := by
  refine ⟨?network, ?distinct, ?nodes, Network.edgeCount_network history, rfl, ?edges,
    ?neighbours, danglingEdges_tfae history⟩
  case network =>
    rw [← Network.neighbours_network, ← Network.nodes_network]
  case distinct =>
    rw [nodes, List.map_map]
    simpa [Function.comp_def] using (Graph.wellFormed_graph history).distinct
  case nodes =>
    exact ⟨history.distinctIds, history.strayEnds, nodes_eq_append history,
      listedByFirst_distinctIds history, listedByFirst_strayEnds history,
      fun id member => exists_first_commit (knows_of_mem_distinctIds member)⟩
  case edges =>
    exact fun source target =>
      ⟨Graph.mem_parents_iff.trans Graph.mem_children_iff.symm, Graph.mem_children_iff⟩
  case neighbours =>
    exact fun id =>
      ⟨listedByFirst_eraseDups (fun edge => edge.target == id) Edge.source history.edges,
        listedByFirst_eraseDups (fun edge => edge.source == id) Edge.target history.edges⟩

end History

end GitLanes
