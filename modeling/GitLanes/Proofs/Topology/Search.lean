import GitLanes.Proofs.Topology.Paths
import Mathlib.Data.List.Perm.Subperm
import Mathlib.Logic.Function.Iterate

namespace GitLanes

/-!
# Searching backwards

A search starts at one node and goes against the edges. It looks at the nodes in
the order in which it met them, and whatever a node has for parents is met then,
unless it was met before. As no node is met twice, the search ends on any graph,
cycles and all, and it ends as soon as it has looked at the ancestors of its
start and at the start itself.
-/

namespace Graph

/-- A search under way: all nodes that were met, and those that were not looked at yet. -/
structure Search where
  met : List String
  waiting : List String
  deriving Repr, DecidableEq

namespace Search

/-- A search that has met its start alone. -/
def start (id : String) : Search where
  met := [id]
  waiting := [id]

/-- The parents of a node that a search has not met. -/
def fresh (graph : Graph) (search : Search) (id : String) : List String :=
  (graph.parents id).filter fun parent => !search.met.contains parent

/-- Look at the node that has waited longest, unless no node waits. -/
def step (graph : Graph) (search : Search) : Search :=
  match search.waiting with
  | [] => search
  | id :: waiting =>
      { met := search.met ++ search.fresh graph id
        waiting := waiting ++ search.fresh graph id }

/-- What is true of a search after a number of steps. -/
structure Valid
    (graph : Graph)
    (id : String)
    (steps : Nat)
    (search : Search) :
    Prop where
  waiting : search.waiting = search.met.drop steps
  distinct : search.met.Nodup
  started : id ∈ search.met
  reached : ∀ node ∈ search.met, node = id ∨ Relation.TransGen graph.Leads node id
  complete : ∀ node ∈ search.met.take steps, ∀ parent, graph.Leads parent node → parent ∈ search.met

theorem mem_fresh_iff
    {graph : Graph}
    {search : Search}
    {id node : String} :
    node ∈ search.fresh graph id ↔ graph.Leads node id ∧ node ∉ search.met := by
  rw [fresh, List.mem_filter, mem_parents_iff, Bool.not_eq_true', ← Bool.not_eq_true,
    List.contains_iff_mem]

variable {graph : Graph} {id : String} {steps : Nat} {search : Search}

theorem valid_start (graph : Graph) (id : String) :
    Valid graph id 0 (start id) where
  waiting := rfl
  distinct := List.nodup_singleton id
  started := List.mem_singleton_self id
  reached := fun _ member => Or.inl (List.mem_singleton.mp member)
  complete := nofun

/-- A search that has looked at a node has met the parents of that node, and no node twice. -/
theorem Valid.look
    (valid : Valid graph id steps search)
    {next : String}
    {waiting : List String}
    (shape : search.waiting = next :: waiting) :
    Valid graph id (steps + 1)
      ⟨search.met ++ search.fresh graph next, waiting ++ search.fresh graph next⟩ := by
  have dropped : search.met.drop steps = next :: waiting := valid.waiting.symm.trans shape
  have nextMet : next ∈ search.met :=
    List.mem_of_mem_drop (dropped ▸ List.mem_cons_self)
  have inRange : steps < search.met.length := by
    refine Nat.lt_of_not_le fun beyond => ?_
    rw [List.drop_eq_nil_of_le beyond] at dropped
    cases dropped
  have rest : search.met.drop (steps + 1) = waiting := by
    rw [← List.tail_drop, dropped, List.tail_cons]
  have looked : search.met.take (steps + 1) = search.met.take steps ++ [next] := by
    have nextIs : search.met[steps] = next := by
      rw [List.drop_eq_getElem_cons inRange] at dropped
      exact (List.cons.inj dropped).1
    rw [← nextIs, List.take_append_getElem]
  refine ⟨?waiting, ?distinct, ?started, ?reached, ?complete⟩
  case waiting =>
    rw [List.drop_append_of_le_length inRange, rest]
  case distinct =>
    rw [List.nodup_append]
    refine ⟨valid.distinct, (nodup_eraseDups _).filter _, ?_⟩
    rintro old member new isFresh rfl
    exact (mem_fresh_iff.mp isFresh).2 member
  case started =>
    exact List.mem_append_left _ valid.started
  case reached =>
    intro node member
    rcases List.mem_append.mp member with old | isFresh
    · exact valid.reached node old
    · have leads := (mem_fresh_iff.mp isFresh).1
      rcases valid.reached next nextMet with rfl | path
      · exact Or.inr (.single leads)
      · exact Or.inr (.head leads path)
  case complete =>
    intro node member parent leads
    rw [List.mem_append]
    rw [List.take_append_of_le_length inRange, looked, List.mem_append] at member
    rcases member with old | isNext
    · exact Or.inl (valid.complete node old parent leads)
    · rw [List.mem_singleton.mp isNext] at leads
      by_cases metBefore : parent ∈ search.met
      · exact Or.inl metBefore
      · exact Or.inr (mem_fresh_iff.mpr ⟨leads, metBefore⟩)

/-- A step keeps what is true of a search, and counts. -/
theorem Valid.step
    (valid : Valid graph id steps search) :
    Valid graph id (steps + 1) (search.step graph) := by
  unfold Search.step
  split
  case h_1 atEnd =>
    have nothingWaits : search.met.drop steps = [] := valid.waiting.symm.trans atEnd
    have allLooked := List.drop_eq_nil_iff.mp nothingWaits
    refine ⟨?_, valid.distinct, valid.started, valid.reached, ?_⟩
    · rw [atEnd, List.drop_eq_nil_of_le (Nat.le_succ_of_le allLooked)]
    · have complete := valid.complete
      rw [List.take_of_length_le allLooked] at complete
      rwa [List.take_of_length_le (Nat.le_succ_of_le allLooked)]
  case h_2 next waiting shape =>
    exact valid.look shape

/-- Every search stays valid, however many steps it makes. -/
theorem valid_iterate (graph : Graph) (id : String) (steps : Nat) :
    Valid graph id steps ((step graph)^[steps] (start id)) := by
  induction steps with
  | zero =>
      exact valid_start graph id
  | succ steps inductionHypothesis =>
      rw [Function.iterate_succ_apply']
      exact inductionHypothesis.step

/-- A search at its end has met every node from which a path leads to its start. -/
theorem Valid.met_of_path
    (valid : Valid graph id steps search)
    (atEnd : search.waiting = [])
    {node : String}
    (path : Relation.TransGen graph.Leads node id) :
    node ∈ search.met := by
  have allLooked := List.drop_eq_nil_iff.mp (valid.waiting.symm.trans atEnd)
  have complete := valid.complete
  rw [List.take_of_length_le allLooked] at complete
  induction path using Relation.TransGen.head_induction_on with
  | single leads =>
      exact complete id valid.started _ leads
  | head leads _ inductionHypothesis =>
      exact complete _ inductionHypothesis _ leads

end Search

/-- What is reached backwards is listed once, if the unvisited nodes are. -/
theorem nodup_backwardReach
    (graph : Graph)
    {unvisited waiting : List String}
    (distinct : unvisited.Nodup) :
    (graph.backwardReach unvisited waiting).Nodup := by
  fun_induction graph.backwardReach unvisited waiting with
  | case1 =>
      exact List.nodup_nil
  | case2 unvisited id waiting inductionHypothesis =>
      rw [List.nodup_append]
      refine ⟨distinct.filter _, inductionHypothesis (distinct.filter _), ?_⟩
      rintro parent isParent other further rfl
      have remains := (path_of_mem_backwardReach further).1
      exact (mem_withoutParents_iff.mp remains).2 (mem_parentsAmong_iff.mp isParent).2

theorem nodup_ancestors
    {graph : Graph}
    (wellFormed : graph.WellFormed)
    (id : String) :
    (graph.ancestors id).Nodup := by
  rw [ancestors, (List.mergeSort_perm _ _).nodup_iff]
  exact graph.nodup_backwardReach (wellFormed.distinct.filter _)

/-- A node is not among its ancestors. -/
theorem nodup_cons_ancestors
    {graph : Graph}
    (wellFormed : graph.WellFormed)
    (id : String) :
    (id :: graph.ancestors id).Nodup :=
  List.nodup_cons.mpr
    ⟨fun own => ((mem_ancestors_iff wellFormed).mp own).1 rfl, nodup_ancestors wellFormed id⟩

/-- A node that the graph does not have has no ancestors. -/
theorem ancestors_eq_nil_of_unknown
    {graph : Graph}
    (wellFormed : graph.WellFormed)
    {id : String}
    (unknown : id ∉ graph.nodes) :
    graph.ancestors id = [] := by
  refine List.eq_nil_iff_forall_not_mem.mpr fun node member => ?_
  obtain ⟨-, path⟩ := (mem_ancestors_iff wellFormed).mp member
  obtain ⟨-, -, edge, isEdge, -, isTarget⟩ := Relation.TransGen.tail'_iff.mp path
  exact unknown (isTarget ▸ (wellFormed.closed edge isEdge).2)

namespace Search

variable {graph : Graph} {id : String} {steps : Nat} {search : Search}

/-- A search meets nothing but its start and the ancestors of it. -/
theorem Valid.met_subset
    (wellFormed : graph.WellFormed)
    (valid : Valid graph id steps search) :
    search.met ⊆ id :: graph.ancestors id := by
  intro node member
  by_cases isStart : node = id
  · exact isStart ▸ List.mem_cons_self
  · have path := (valid.reached node member).resolve_left isStart
    exact List.mem_cons_of_mem _ ((mem_ancestors_iff wellFormed).mpr ⟨isStart, path⟩)

/-- A search at its end has met its start and the ancestors of its start. -/
theorem Valid.met_perm
    (wellFormed : graph.WellFormed)
    (valid : Valid graph id steps search)
    (atEnd : search.waiting = []) :
    search.met.Perm (id :: graph.ancestors id) := by
  refine (List.perm_ext_iff_of_nodup valid.distinct (nodup_cons_ancestors wellFormed id)).mpr ?_
  refine fun node => ⟨fun member => valid.met_subset wellFormed member, fun member => ?_⟩
  rcases List.mem_cons.mp member with rfl | isAncestor
  · exact valid.started
  · exact valid.met_of_path atEnd ((mem_ancestors_iff wellFormed).mp isAncestor).2

/-- A search is at its end as soon as it has made a step for its start and for each ancestor. -/
theorem Valid.waiting_eq_nil_iff
    (wellFormed : graph.WellFormed)
    (valid : Valid graph id steps search) :
    search.waiting = [] ↔ (graph.ancestors id).length < steps := by
  constructor
  · intro atEnd
    have allLooked := List.drop_eq_nil_iff.mp (valid.waiting.symm.trans atEnd)
    rwa [(valid.met_perm wellFormed atEnd).length_eq] at allLooked
  · intro manySteps
    have notMore := (List.Nodup.subperm valid.distinct (valid.met_subset wellFormed)).length_le
    rw [List.length_cons] at notMore
    rw [valid.waiting, List.drop_eq_nil_iff]
    exact Nat.le_trans notMore manySteps

end Search

end Graph

/--
The ancestors of an identifier are the other ones from which a path of edges
leads to it, whatever the commits and edges of the history are. An identifier
that is no node has none. All parents but the node itself are ancestors, and the
ancestors of an ancestor are, apart from the node itself. A search against the
edges that meets no node twice finds them in exactly as many steps as there are
ancestors, and one more for the start.
-/
theorem History.ancestors_are_strict_reachability
    (history : History)
    (id : String) :
    (∀ node,
      node ∈ history.graph.ancestors id ↔
        node ≠ id ∧ Relation.TransGen history.graph.Leads node id) ∧
      (id ∉ history.graph.nodes → history.graph.ancestors id = []) ∧
      (∀ parent ∈ history.graph.parents id,
        parent ≠ id → parent ∈ history.graph.ancestors id) ∧
      (∀ ancestor ∈ history.graph.ancestors id,
        history.graph.ancestors ancestor ⊆ id :: history.graph.ancestors id) ∧
      ∀ steps,
        let search := (Graph.Search.step history.graph)^[steps] (.start id)
        (search.waiting = [] ↔ (history.graph.ancestors id).length < steps) ∧
          (search.waiting = [] → search.met.Perm (id :: history.graph.ancestors id)) := by
  have wellFormed := Graph.wellFormed_graph history
  have reachable (source target : String) :
      source ∈ history.graph.ancestors target ↔
        source ≠ target ∧ Relation.TransGen history.graph.Leads source target :=
    Graph.mem_ancestors_iff wellFormed
  refine ⟨fun node => reachable node id, Graph.ancestors_eq_nil_of_unknown wellFormed,
    ?parents, ?ancestors, ?search⟩
  case parents =>
    intro parent isParent differs
    exact (reachable parent id).mpr ⟨differs, .single (Graph.mem_parents_iff.mp isParent)⟩
  case ancestors =>
    intro ancestor isAncestor node member
    by_cases isStart : node = id
    · exact isStart ▸ List.mem_cons_self
    · have path := ((reachable node ancestor).mp member).2.trans
        ((reachable ancestor id).mp isAncestor).2
      exact List.mem_cons_of_mem _ ((reachable node id).mpr ⟨isStart, path⟩)
  case search =>
    intro steps search
    have valid : Graph.Search.Valid history.graph id steps search :=
      Graph.Search.valid_iterate history.graph id steps
    exact ⟨valid.waiting_eq_nil_iff wellFormed, valid.met_perm wellFormed⟩

end GitLanes
