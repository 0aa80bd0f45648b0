import GitLanes.Proofs.Topology.Paths

namespace GitLanes

/-!
# Nodes and stray ends

The nodes of a graph are the identifiers of the commits and then the stray ends
of edges, which are those that no commit has. An identifier stands for the first
commit that has it, and a stray end stands for none. There are no stray ends
exactly if no edge dangles.
-/

namespace History

variable {history : History}

/-- The identifiers of the commits, once each. -/
def distinctIds (history : History) : List String :=
  (history.commits.map CommitNode.id).eraseDups

/-- The ends of edges that no commit has, once each. -/
def strayEnds (history : History) : List String :=
  ((history.edges.flatMap Edge.ends).filter fun id => !history.knows id).eraseDups

theorem knows_iff
    {id : String} :
    history.knows id = true ↔ id ∈ history.commits.map CommitNode.id := by
  simp [knows]

/-- There is no commit exactly for the identifiers that a history does not know. -/
theorem commit?_eq_none_iff
    {id : String} :
    history.commit? id = none ↔ history.knows id = false := by
  simp [commit?, knows]

theorem knows_of_mem_distinctIds
    {id : String}
    (member : id ∈ history.distinctIds) :
    history.knows id = true :=
  knows_iff.mpr (List.mem_eraseDups.mp member)

theorem knows_of_mem_strayEnds
    {id : String}
    (member : id ∈ history.strayEnds) :
    history.knows id = false := by
  have kept := (List.mem_filter.mp (List.mem_eraseDups.mp member)).2
  rwa [Bool.not_eq_true'] at kept

/-- The commits come first among the nodes. -/
theorem graph_nodes_eq_append (history : History) :
    history.graph.nodes = history.distinctIds ++ history.strayEnds := by
  have strayOnly :
      (history.edges.flatMap Edge.ends).removeAll (history.commits.map CommitNode.id) =
        (history.edges.flatMap Edge.ends).filter fun id => !history.knows id := by
    refine List.filter_congr fun id _ => ?_
    rw [Bool.not_inj_iff, Bool.eq_iff_iff, knows_iff]
    exact List.elem_iff
  rw [graph, List.eraseDups_append]
  change _ ++ ((history.edges.flatMap Edge.ends).removeAll _).eraseDups = _
  rw [strayOnly]
  rfl

/-- The nodes are the known identifiers with their commits, then the stray ends without one. -/
theorem nodes_eq_append (history : History) :
    history.nodes =
      history.distinctIds.map (fun id => (id, history.commit? id)) ++
        history.strayEnds.map fun id => (id, none) := by
  rw [nodes, graph_nodes_eq_append, List.map_append, List.append_cancel_left_eq]
  refine List.map_congr_left fun id member => ?_
  rw [commit?_eq_none_iff.mpr (knows_of_mem_strayEnds member)]

/-- An identifier stands for the first commit that has it. -/
theorem exists_first_commit
    {id : String}
    (known : history.knows id = true) :
    ∃ before commit after,
      history.commit? id = some commit ∧
        history.commits = before ++ commit :: after ∧
        commit.id = id ∧
        ∀ earlier ∈ before, earlier.id ≠ id := by
  cases found : history.commit? id with
  | none =>
      rw [commit?_eq_none_iff.mp found] at known
      contradiction
  | some commit =>
      obtain ⟨hasId, before, after, shape, others⟩ := List.find?_eq_some_iff_append.mp found
      refine ⟨before, commit, after, rfl, shape, beq_iff_eq.mp hasId, fun earlier member => ?_⟩
      simpa using others earlier member

/-- There are no stray ends exactly if both ends of every edge are known. -/
theorem strayEnds_eq_nil_iff :
    history.strayEnds = [] ↔
      ∀ edge ∈ history.edges,
        history.knows edge.source = true ∧ history.knows edge.target = true := by
  have allKnown :
      history.strayEnds = [] ↔
        ∀ id ∈ history.edges.flatMap Edge.ends, history.knows id = true := by
    simp [strayEnds, List.eq_nil_iff_forall_not_mem]
  rw [allKnown, List.forall_mem_flatMap]
  simp [Edge.ends]

/-- No edge dangles exactly if there are no stray ends. -/
theorem danglingEdges_eq_nil_iff :
    history.danglingEdges = [] ↔ history.strayEnds = [] := by
  rw [strayEnds_eq_nil_iff, danglingEdges, List.filter_eq_nil_iff]
  simp

/-- Every node has a commit exactly if there are no stray ends. -/
theorem forall_isSome_iff :
    (∀ node ∈ history.nodes, node.2.isSome = true) ↔ history.strayEnds = [] := by
  rw [nodes_eq_append, List.forall_mem_append]
  constructor
  · rintro ⟨-, stray⟩
    refine List.eq_nil_iff_forall_not_mem.mpr fun id member => ?_
    exact absurd (stray _ (List.mem_map_of_mem member)) (by simp)
  · intro none
    rw [none]
    refine ⟨List.forall_mem_map.mpr fun id member => ?_, nofun⟩
    obtain ⟨-, commit, -, found, -⟩ := exists_first_commit (knows_of_mem_distinctIds member)
    rw [found, Option.isSome_some]

end History

end GitLanes
