import GitLanes.Topology.Order
import GitLanes.Proofs.Topology.Paths
import Mathlib.Data.List.Perm.Basic
import Mathlib.Data.List.Perm.Lattice
import Mathlib.Order.WellFoundedSet

namespace GitLanes.Graph

/-!
# Sorting by generations

Listing a graph generation by generation places the source of every edge before
its target, and every node that is never listed has a parent that is never
listed either. Among finitely many nodes that takes a cycle, so all nodes are
listed as soon as there is none.
-/

/-- Whether every edge into a node comes from a listed node. -/
def Ready (graph : Graph) (listed : List String) (id : String) : Prop :=
  ∀ source, graph.Leads source id → source ∈ listed

/-- No edge into a node is open exactly if the node is ready. -/
theorem openDegree_eq_zero_iff
    {graph : Graph}
    {listed : List String}
    {id : String} :
    graph.openDegree listed id = 0 ↔ graph.Ready listed id := by
  rw [openDegree, List.countP_eq_zero]
  constructor
  · rintro closed source ⟨edge, member, rfl, isTarget⟩
    simpa [isTarget] using closed edge member
  · intro ready edge member
    by_cases isTarget : edge.target = id
    · simpa [isTarget] using ready edge.source ⟨edge, member, rfl, isTarget⟩
    · simp [isTarget]

/-- A node that is ready stays so when more nodes are listed. -/
theorem Ready.mono
    {graph : Graph}
    {listed more : List String}
    {id : String}
    (ready : graph.Ready listed id)
    (subset : listed ⊆ more) :
    graph.Ready more id :=
  fun source leads => subset (ready source leads)

/--
A generation frees the nodes that are ready once it is listed, as long as one of
their parents belongs to it.
-/
theorem mem_freed_iff
    {graph : Graph}
    {listed generation : List String}
    {child : String} :
    child ∈ graph.freed listed generation ↔
      graph.Ready (generation.reverse ++ listed) child ∧
        ∃ id ∈ generation, graph.Leads id child := by
  induction generation generalizing listed with
  | nil =>
      simp [freed]
  | cons id generation inductionHypothesis =>
      have sameListed :
          (id :: generation).reverse ++ listed = generation.reverse ++ id :: listed := by
        simp
      rw [freed, List.mem_append, List.mem_filter, inductionHypothesis, beq_iff_eq,
        openDegree_eq_zero_iff, mem_children_iff, sameListed]
      constructor
      · intro freed
        rcases freed with ⟨leads, ready⟩ | ⟨ready, parent, member, leads⟩
        · exact ⟨ready.mono (List.subset_append_right _ _), id, by simp, leads⟩
        · exact ⟨ready, parent, List.mem_cons_of_mem _ member, leads⟩
      · rintro ⟨ready, parent, member, leads⟩
        by_cases later : ∃ other ∈ generation, graph.Leads other child
        · exact Or.inr ⟨ready, later⟩
        · -- The head of the generation is then the last parent of the child to be listed.
          left
          have parentIsHead : parent = id :=
            (List.mem_cons.mp member).resolve_right fun inRest => later ⟨parent, inRest, leads⟩
          refine ⟨parentIsHead ▸ leads, fun source leads => ?_⟩
          refine (List.mem_append.mp (ready source leads)).resolve_left fun inRest => ?_
          exact later ⟨source, List.mem_reverse.mp inRest, leads⟩

/-- No node is freed twice. -/
theorem nodup_freed
    {graph : Graph}
    {listed generation : List String}
    (distinct : (generation ++ listed).Nodup) :
    (graph.freed listed generation).Nodup := by
  induction generation generalizing listed with
  | nil =>
      exact List.nodup_nil
  | cons id generation inductionHypothesis =>
      have restDistinct : (generation ++ id :: listed).Nodup :=
        (List.perm_middle.nodup_iff).mpr distinct
      rw [freed, List.nodup_append]
      refine ⟨(nodup_eraseDups _).filter _, inductionHypothesis restDistinct, ?_⟩
      rintro child freedNow _ freedLater rfl
      obtain ⟨-, parent, member, leads⟩ := mem_freed_iff.mp freedLater
      have ready := openDegree_eq_zero_iff.mp (beq_iff_eq.mp (List.mem_filter.mp freedNow).2)
      exact (List.disjoint_of_nodup_append restDistinct) member (ready parent leads)

/-- The state of a listing: what is listed, what comes next and what has to wait. -/
structure Listing (graph : Graph) (listed generation waiting : List String) : Prop where
  covers : graph.nodes.Perm (listed ++ generation ++ waiting)
  ready : ∀ id ∈ listed ++ generation, graph.Ready listed id
  blocked : ∀ id ∈ waiting, ¬ graph.Ready listed id

theorem perm_append_removeAll
    {some all : List String}
    (someDistinct : some.Nodup)
    (allDistinct : all.Nodup)
    (subset : some ⊆ all) :
    all.Perm (some ++ all.removeAll some) := by
  have kept : (all.filter fun item => some.elem item).Perm some := by
    rw [List.perm_ext_iff_of_nodup (allDistinct.filter _) someDistinct]
    intro item
    simp only [List.mem_filter, List.elem_iff]
    exact ⟨And.right, fun member => ⟨subset member, member⟩⟩
  exact (List.filter_append_perm _ all).symm.trans (kept.append_right _)

namespace Listing

/-- A listing starts with the nodes that have no parents. -/
theorem start
    {graph : Graph}
    (wellFormed : graph.WellFormed) :
    Listing graph [] graph.roots (graph.nodes.removeAll graph.roots) where
  covers :=
    perm_append_removeAll (wellFormed.distinct.filter _) wellFormed.distinct
      List.filter_sublist.subset
  ready := by
    intro id isRoot
    exact openDegree_eq_zero_iff.mp (beq_iff_eq.mp (List.mem_filter.mp isRoot).2)
  blocked := by
    intro id member ready
    obtain ⟨isNode, notRoot⟩ := List.mem_filter.mp member
    have isRoot : id ∈ graph.roots :=
      List.mem_filter.mpr ⟨isNode, beq_iff_eq.mpr (openDegree_eq_zero_iff.mpr ready)⟩
    simp [isRoot] at notRoot

/-- A listing has no node twice, whether it is listed, in its generation or waiting. -/
theorem nodup
    {graph : Graph}
    {listed generation waiting : List String}
    (listing : Listing graph listed generation waiting)
    (wellFormed : graph.WellFormed) :
    (listed ++ generation ++ waiting).Nodup :=
  listing.covers.nodup_iff.mp wellFormed.distinct

/-- The nodes that come next are neither repeated nor listed already. -/
theorem nodup_generation
    {graph : Graph}
    {listed generation waiting : List String}
    (listing : Listing graph listed generation waiting)
    (wellFormed : graph.WellFormed) :
    (generation ++ listed).Nodup :=
  List.nodup_append_comm.mp (listing.nodup wellFormed).of_append_left

/-- A generation frees nodes that were waiting. -/
theorem freed_subset_waiting
    {graph : Graph}
    {listed generation waiting : List String}
    (listing : Listing graph listed generation waiting)
    (wellFormed : graph.WellFormed) :
    graph.freed listed generation ⊆ waiting := by
  intro child freed
  obtain ⟨-, id, member, leads⟩ := mem_freed_iff.mp freed
  have isNode : child ∈ graph.nodes := by
    obtain ⟨edge, isEdge, -, rfl⟩ := leads
    exact (wellFormed.closed edge isEdge).2
  refine (List.mem_append.mp (listing.covers.subset isNode)).resolve_left fun met => ?_
  have listedBefore := listing.ready child met id leads
  exact List.disjoint_of_nodup_append (listing.nodup wellFormed).of_append_left listedBefore member

/-- The nodes that a generation frees are the next generation. -/
theorem next
    {graph : Graph}
    {listed generation waiting : List String}
    (listing : Listing graph listed generation waiting)
    (wellFormed : graph.WellFormed) :
    Listing graph (generation.reverse ++ listed) (graph.freed listed generation)
      (waiting.removeAll (graph.freed listed generation)) where
  covers := by
    have distinct := listing.nodup wellFormed
    have split := perm_append_removeAll
      (nodup_freed (listing.nodup_generation wellFormed))
      distinct.of_append_right (listing.freed_subset_waiting wellFormed)
    have sameListed : (listed ++ generation).Perm (generation.reverse ++ listed) :=
      List.perm_append_comm.trans ((List.reverse_perm generation).symm.append_right listed)
    refine listing.covers.trans ?_
    rw [List.append_assoc (generation.reverse ++ listed)]
    exact sameListed.append split
  ready := by
    intro id member
    rcases List.mem_append.mp member with met | freed
    · have before : id ∈ listed ++ generation := by
        simpa [or_comm] using met
      exact (listing.ready id before).mono (List.subset_append_right _ _)
    · exact (mem_freed_iff.mp freed).1
  blocked := by
    intro id member ready
    obtain ⟨isWaiting, notFreed⟩ := List.mem_filter.mp member
    have parentInGeneration : ∃ parent ∈ generation, graph.Leads parent id := by
      by_contra noParent
      refine listing.blocked id isWaiting fun source leads => ?_
      refine (List.mem_append.mp (ready source leads)).resolve_left fun inGeneration => ?_
      exact noParent ⟨source, List.mem_reverse.mp inGeneration, leads⟩
    have freed := mem_freed_iff.mpr ⟨ready, parentInGeneration⟩
    simp [freed] at notFreed

/-- A generation that leaves all that waits waiting frees nothing. -/
theorem freed_eq_nil
    {graph : Graph}
    {listed generation waiting : List String}
    (listing : Listing graph listed generation waiting)
    (wellFormed : graph.WellFormed)
    (notShorter :
      ¬ (waiting.removeAll (graph.freed listed generation)).length < waiting.length) :
    graph.freed listed generation = [] := by
  have unchanged : waiting.removeAll (graph.freed listed generation) = waiting :=
    List.filter_sublist.eq_of_length_le (Nat.le_of_not_lt notShorter)
  refine List.eq_nil_iff_forall_not_mem.mpr fun child freed => ?_
  have waits := listing.freed_subset_waiting wellFormed freed
  rw [← unchanged] at waits
  simpa [freed] using (List.mem_filter.mp waits).2

end Listing

/-- One node stands before another in a list. -/
def Precedes (order : List String) (source target : String) : Prop :=
  [source, target].Sublist order

/--
A listing places every parent before its children, and a node that is never
listed has a parent that is never listed either.
-/
theorem generations_sorted
    {graph : Graph}
    (wellFormed : graph.WellFormed)
    {listed generation waiting : List String}
    (listing : Listing graph listed generation waiting) :
    ∃ rest,
      (graph.generations listed generation waiting ++ rest).Perm (generation ++ waiting) ∧
        (∀ source target,
          graph.Leads source target →
          target ∈ graph.generations listed generation waiting →
          source ∈ listed ∨
            Precedes (graph.generations listed generation waiting) source target) ∧
        ∀ target ∈ rest, ∃ source ∈ rest, graph.Leads source target := by
  fun_induction graph.generations listed generation waiting with
  | case1 listed generation waiting next stillWaiting shorter inductionHypothesis =>
      have distinct := listing.nodup wellFormed
      simp only [List.unattach_reverse, List.unattach_attach] at inductionHypothesis
      obtain ⟨rest, covers, sorted, leftOver⟩ :=
        inductionHypothesis (listing.next wellFormed)
      refine ⟨rest, ?_, ?_, leftOver⟩
      · rw [List.append_assoc]
        refine (covers.trans (perm_append_removeAll ?_ ?_ ?_).symm).append_left generation
        · exact nodup_freed (listing.nodup_generation wellFormed)
        · exact distinct.of_append_right
        · exact listing.freed_subset_waiting wellFormed
      · intro source target leads member
        rcases List.mem_append.mp member with inGeneration | later
        · exact Or.inl (listing.ready target (List.mem_append_right _ inGeneration) source leads)
        · rcases sorted source target leads later with met | precedes
          · rcases List.mem_append.mp met with inGeneration | before
            · have first := List.singleton_sublist.mpr (List.mem_reverse.mp inGeneration)
              have second := List.singleton_sublist.mpr later
              exact Or.inr (first.append second)
            · exact Or.inl before
          · exact Or.inr (precedes.trans (List.sublist_append_right _ _))
  | case2 listed generation waiting next stillWaiting notShorter =>
      -- Nothing was freed, so all that waits is left over, each for a parent that waits too.
      refine ⟨waiting, List.Perm.refl _, ?_, ?_⟩
      · intro source target leads member
        exact Or.inl (listing.ready target (List.mem_append_right _ member) source leads)
      · intro target isWaiting
        have remains : target ∈ stillWaiting := by
          have nothingFreed : next = [] := listing.freed_eq_nil wellFormed notShorter
          simpa [stillWaiting, nothingFreed] using isWaiting
        have blocked := (listing.next wellFormed).blocked target remains
        by_contra noParent
        refine blocked fun source leads => ?_
        have isNode : source ∈ graph.nodes := by
          obtain ⟨edge, isEdge, rfl, -⟩ := leads
          exact (wellFormed.closed edge isEdge).1
        rcases List.mem_append.mp (listing.covers.subset isNode) with met | waits
        · simpa [or_comm] using met
        · exact (noParent ⟨source, waits, leads⟩).elim

/-- A listing of all nodes in which every edge leads forward. -/
structure IsTopological (graph : Graph) (order : List String) : Prop where
  covers : order.Perm graph.nodes
  forward : ∀ edge ∈ graph.edges, Precedes order edge.source edge.target

/-- What can be sorted is sorted, and the nodes left over have parents among themselves. -/
theorem sortable_sorted
    {graph : Graph}
    (wellFormed : graph.WellFormed) :
    ∃ rest,
      (graph.sortable ++ rest).Perm graph.nodes ∧
        (∀ source target,
          graph.Leads source target →
          target ∈ graph.sortable →
          Precedes graph.sortable source target) ∧
        ∀ target ∈ rest, ∃ source ∈ rest, graph.Leads source target := by
  have listing := Listing.start wellFormed
  obtain ⟨rest, covers, sorted, leftOver⟩ := generations_sorted wellFormed listing
  refine ⟨rest, covers.trans listing.covers.symm, ?_, leftOver⟩
  intro source target leads member
  exact (sorted source target leads member).resolve_left List.not_mem_nil

/-- Whether no path leads from a node back to itself. -/
def Acyclic (graph : Graph) : Prop :=
  ∀ node, ¬ Relation.TransGen graph.Leads node node

/-- Without a cycle, parents cannot be found without end among finitely many nodes. -/
theorem Acyclic.eq_nil_of_parented
    {graph : Graph}
    (acyclic : graph.Acyclic)
    {nodes : List String}
    (parented : ∀ target ∈ nodes, ∃ source ∈ nodes, graph.Leads source target) :
    nodes = [] := by
  have : Std.Irrefl (Relation.TransGen graph.Leads) := ⟨acyclic⟩
  have : IsStrictOrder String (Relation.TransGen graph.Leads) := {}
  have wellFounded : Set.WellFoundedOn {node | node ∈ nodes} (Relation.TransGen graph.Leads) :=
    nodes.finite_toSet.wellFoundedOn
  refine List.eq_nil_iff_forall_not_mem.mpr fun node member => ?_
  refine wellFounded.induction (P := fun _ => False) member
    fun target member inductionHypothesis => ?_
  obtain ⟨source, sourceMember, leads⟩ := parented target member
  exact inductionHypothesis source sourceMember (.single leads)

/-- A numbering in which every edge leads to a larger number leaves no room for a cycle. -/
theorem acyclic_of_increasing
    {graph : Graph}
    (rank : String → Nat)
    (increases : ∀ edge ∈ graph.edges, rank edge.source < rank edge.target) :
    graph.Acyclic := by
  have climbs
      {source target : String}
      (path : Relation.TransGen graph.Leads source target) :
      rank source < rank target := by
    induction path with
    | single leads =>
        obtain ⟨edge, member, rfl, rfl⟩ := leads
        exact increases edge member
    | tail _ leads inductionHypothesis =>
        obtain ⟨edge, member, rfl, rfl⟩ := leads
        exact inductionHypothesis.trans (increases edge member)
  exact fun node cycle => (climbs cycle).false

/-- If nothing is left over, what can be sorted is a listing of all nodes. -/
theorem isTopological_sortable
    {graph : Graph}
    (wellFormed : graph.WellFormed)
    (complete : graph.sortable.length = graph.nodes.length) :
    graph.IsTopological graph.sortable := by
  obtain ⟨rest, covers, sorted, -⟩ := sortable_sorted wellFormed
  have nothingLeft : rest = [] := by
    have counted := covers.length_eq
    rw [List.length_append, complete] at counted
    exact List.length_eq_zero_iff.mp (Nat.add_eq_left.mp counted)
  rw [nothingLeft, List.append_nil] at covers
  refine ⟨covers, fun edge isEdge => ?_⟩
  have listed := covers.symm.subset (wellFormed.closed edge isEdge).2
  exact sorted edge.source edge.target ⟨edge, isEdge, rfl, rfl⟩ listed

/-- Without a cycle, all nodes can be sorted. -/
theorem Acyclic.exists_topologicalOrder
    {graph : Graph}
    (acyclic : graph.Acyclic)
    (wellFormed : graph.WellFormed) :
    ∃ order, graph.topologicalOrder? = some order ∧ graph.IsTopological order := by
  obtain ⟨rest, covers, -, leftOver⟩ := sortable_sorted wellFormed
  rw [acyclic.eq_nil_of_parented leftOver, List.append_nil] at covers
  exact ⟨graph.sortable, if_pos covers.length_eq,
    isTopological_sortable wellFormed covers.length_eq⟩

/-- A numbering in which every edge leads to a larger number shows that all nodes can be sorted. -/
theorem exists_topologicalOrder
    {graph : Graph}
    (wellFormed : graph.WellFormed)
    (rank : String → Nat)
    (increases : ∀ edge ∈ graph.edges, rank edge.source < rank edge.target) :
    ∃ order, graph.topologicalOrder? = some order ∧ graph.IsTopological order :=
  (acyclic_of_increasing rank increases).exists_topologicalOrder wellFormed

end GitLanes.Graph
