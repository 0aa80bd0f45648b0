import GitLanes.Proofs.Topology.Sorting
import Mathlib.Logic.Function.Basic

namespace GitLanes.Graph

/-!
# Counting down

Generations can be listed with a table of the nodes that wait, each with the
number of its incoming edges. When a node is listed, all edges from it to a
child are taken off the number of that child at once, and a child whose number
reaches zero leaves the table for the next generation. The table never holds
anything but what the listed nodes leave open, so the nodes come in the same
order, and the table is empty at the end exactly if all nodes were listed.
-/

/-- The number of parallel edges from one node to another. -/
def multiplicity (graph : Graph) (source target : String) : Nat :=
  graph.edges.countP fun edge => edge.source == source && edge.target == target

/-- The nodes that wait, each with a number of edges, and the nodes that no longer do. -/
structure Countdown where
  waiting : List (String × Nat)
  freed : List String
  deriving Repr, DecidableEq

namespace Countdown

/-- An entry of the table after some edges to a node were taken off. -/
def lower (child : String) (edges : Nat) (entry : String × Nat) : String × Nat :=
  if entry.1 = child then (entry.1, entry.2 - edges) else entry

/-- Take the edges from a listed node off the number of a child, which is freed at zero. -/
def strike (graph : Graph) (id : String) (countdown : Countdown) (child : String) : Countdown :=
  let counted := countdown.waiting.map (lower child (graph.multiplicity id child))
  { waiting := counted.filter fun entry => entry != (child, 0)
    freed := if (child, 0) ∈ counted then countdown.freed ++ [child] else countdown.freed }

/-- List a node: strike the edges to each of its children. -/
def listNode (graph : Graph) (countdown : Countdown) (id : String) : Countdown :=
  (graph.children id).foldl (strike graph id) countdown

/-- List a generation node by node. -/
def listGeneration
    (graph : Graph)
    (waiting : List (String × Nat))
    (generation : List String) :
    Countdown :=
  generation.foldl (listNode graph) ⟨waiting, []⟩

/-- The number of nodes that a countdown holds, waiting or freed. -/
def size (countdown : Countdown) : Nat :=
  countdown.waiting.length + countdown.freed.length

/-- Striking a child makes a countdown no longer. -/
theorem size_strike_le
    (graph : Graph)
    (id : String)
    (countdown : Countdown)
    (child : String) :
    (strike graph id countdown child).size ≤ countdown.size := by
  have asMany :
      (countdown.waiting.map (lower child (graph.multiplicity id child))).length =
        countdown.waiting.length :=
    List.length_map _
  simp only [size, strike]
  generalize countdown.waiting.map (lower child (graph.multiplicity id child)) = counted
    at asMany
  by_cases reached : (child, 0) ∈ counted
  · have shorter : (counted.filter fun entry => entry != (child, 0)).length < counted.length :=
      List.length_filter_lt_length_iff_exists.mpr ⟨(child, 0), reached, by simp⟩
    rw [if_pos reached, List.length_append, List.length_singleton]
    omega
  · have notLonger := List.length_filter_le (fun entry => entry != (child, 0)) counted
    rw [if_neg reached]
    omega

/-- If no step makes a countdown longer, then no number of them does. -/
theorem size_foldl_le
    {step : Countdown → String → Countdown}
    (shrinks : ∀ countdown id, (step countdown id).size ≤ countdown.size)
    (countdown : Countdown)
    (ids : List String) :
    (ids.foldl step countdown).size ≤ countdown.size := by
  induction ids generalizing countdown with
  | nil =>
      exact Nat.le_refl _
  | cons id ids inductionHypothesis =>
      exact Nat.le_trans (inductionHypothesis (step countdown id)) (shrinks countdown id)

/-- Listing a generation frees no node that was not waiting. -/
theorem size_listGeneration_le
    (graph : Graph)
    (waiting : List (String × Nat))
    (generation : List String) :
    (listGeneration graph waiting generation).size ≤ waiting.length :=
  size_foldl_le (fun countdown id => size_foldl_le (size_strike_le graph id) countdown _) _ _

end Countdown

/-- A generation and all that follow it, and what is left in the table at the end. -/
def countDown
    (graph : Graph) :
    List (String × Nat) → List String → List String × List (String × Nat)
  | waiting, [] => ([], waiting)
  | waiting, id :: generation =>
      let next := Countdown.listGeneration graph waiting (id :: generation)
      let later := graph.countDown next.waiting next.freed
      (id :: generation ++ later.1, later.2)
termination_by waiting generation => waiting.length + generation.length
decreasing_by
  have bounded := Countdown.size_listGeneration_le graph waiting (id :: generation)
  simp only [Countdown.size, List.length_cons] at bounded ⊢
  omega

/-- Every node with the number of its incoming edges. -/
def inDegrees (graph : Graph) : List (String × Nat) :=
  graph.nodes.map fun id => (id, graph.edges.countP fun edge => edge.target == id)

/-- The nodes as they are listed by counting down, unless some are left in the table. -/
def countedOrder? (graph : Graph) : Option (List String) :=
  let roots := (graph.inDegrees.filter fun entry => entry.2 == 0).map Prod.fst
  let counted := graph.countDown (graph.inDegrees.filter fun entry => entry.2 != 0) roots
  if counted.2 = [] then some counted.1 else none

/-- The nodes with a number other than zero, each with its number. -/
def table (graph : Graph) (degree : String → Nat) : List (String × Nat) :=
  (graph.nodes.map fun id => (id, degree id)).filter fun entry => entry.2 != 0

theorem mem_table_iff
    {graph : Graph}
    {degree : String → Nat}
    {id : String}
    {number : Nat} :
    (id, number) ∈ graph.table degree ↔ id ∈ graph.nodes ∧ degree id = number ∧ number ≠ 0 := by
  rw [table, List.mem_filter, List.mem_map, bne_iff_ne]
  constructor
  · rintro ⟨⟨node, isNode, same⟩, positive⟩
    cases same
    exact ⟨isNode, rfl, positive⟩
  · rintro ⟨isNode, rfl, positive⟩
    exact ⟨⟨id, isNode, rfl⟩, positive⟩

/-- The table can be made in one pass over the nodes. -/
theorem table_eq_filterMap
    (graph : Graph)
    (degree : String → Nat) :
    graph.table degree =
      graph.nodes.filterMap fun id => if degree id = 0 then none else some (id, degree id) := by
  rw [table, ← List.filterMap_eq_map, List.filter_filterMap]
  refine List.filterMap_congr fun id _ => ?_
  by_cases zero : degree id = 0 <;> simp [Option.filter, zero]

/-- Striking edges to a child that waits lowers its number and no other. -/
theorem strike_table
    {graph : Graph}
    {degree : String → Nat}
    {id child : String}
    (isNode : child ∈ graph.nodes)
    (waits : degree child ≠ 0)
    {left : Nat}
    (leaves : degree child - graph.multiplicity id child = left)
    (freed : List String) :
    Countdown.strike graph id ⟨graph.table degree, freed⟩ child =
      ⟨graph.table (Function.update degree child left),
        freed ++ if left = 0 then [child] else []⟩ := by
  have reached :
      (child, 0) ∈ (graph.table degree).map
        (Countdown.lower child (graph.multiplicity id child)) ↔ left = 0 := by
    rw [List.mem_map]
    constructor
    · rintro ⟨⟨node, number⟩, member, same⟩
      obtain ⟨-, rfl, positive⟩ := mem_table_iff.mp member
      by_cases isChild : node = child
      · simp_all [Countdown.lower]
      · simp_all [Countdown.lower]
    · rintro rfl
      exact ⟨(child, degree child), mem_table_iff.mpr ⟨isNode, rfl, waits⟩,
        by simp [Countdown.lower, leaves]⟩
  have remains :
      ((graph.table degree).map (Countdown.lower child (graph.multiplicity id child))).filter
          (fun entry => entry != (child, 0)) =
        graph.table (Function.update degree child left) := by
    rw [table_eq_filterMap, table_eq_filterMap, List.map_filterMap, List.filter_filterMap]
    refine List.filterMap_congr fun node _ => ?_
    by_cases isChild : node = child
    · subst isChild
      by_cases zero : left = 0 <;> simp [Option.filter, Countdown.lower, waits, leaves, zero]
    · by_cases zero : degree node = 0 <;>
        simp [Option.filter, Countdown.lower, isChild, zero]
  simp only [Countdown.strike, reached, remains]
  split <;> simp

/-- Listing a node closes the edges that leave it. -/
theorem openDegree_eq_add_multiplicity
    (graph : Graph)
    {listed : List String}
    {id : String}
    (unlisted : id ∉ listed)
    (child : String) :
    graph.openDegree listed child =
      graph.openDegree (id :: listed) child + graph.multiplicity id child := by
  simp only [openDegree, multiplicity]
  induction graph.edges with
  | nil =>
      rfl
  | cons edge edges inductionHypothesis =>
      rw [List.countP_cons, List.countP_cons, List.countP_cons, inductionHypothesis]
      by_cases leaves : edge.source = id
      · by_cases arrives : edge.target = child <;> simp [leaves, arrives, unlisted]
        omega
      · by_cases arrives : edge.target = child <;> simp [leaves, arrives]
        omega

/-- There are parallel edges between nodes exactly if one leads to the other. -/
theorem multiplicity_ne_zero_iff
    {graph : Graph}
    {source target : String} :
    graph.multiplicity source target ≠ 0 ↔ graph.Leads source target := by
  rw [multiplicity, ← Nat.pos_iff_ne_zero, List.countP_pos_iff]
  simp [Leads]

/--
Striking the edges to children one after the other lowers their numbers and
frees those that reach zero.
-/
theorem foldl_strike_table
    {graph : Graph}
    {id : String}
    {before after : String → Nat}
    {children : List String}
    (distinct : children.Nodup)
    (areNodes : children ⊆ graph.nodes)
    (wait : ∀ child ∈ children, before child ≠ 0)
    (lowered :
      ∀ child ∈ children, before child - graph.multiplicity id child = after child)
    (freed : List String) :
    children.foldl (Countdown.strike graph id) ⟨graph.table before, freed⟩ =
      ⟨graph.table fun node => if node ∈ children then after node else before node,
        freed ++ children.filter fun child => after child == 0⟩ := by
  induction children generalizing before freed with
  | nil =>
      simp
  | cons child children inductionHypothesis =>
      obtain ⟨absent, distinct⟩ := List.nodup_cons.mp distinct
      rw [List.cons_subset] at areNodes
      rw [List.forall_mem_cons] at wait lowered
      -- The other children are not the one that is struck, so their numbers are what they were.
      have others :
          ∀ other ∈ children,
            Function.update before child (after child) other = before other := by
        intro other member
        refine Function.update_of_ne ?_ _ _
        rintro rfl
        exact absent member
      rw [List.foldl_cons, strike_table areNodes.1 wait.1 lowered.1,
        inductionHypothesis distinct areNodes.2
          (fun other member => (others other member).symm ▸ wait.2 other member)
          (fun other member => (others other member).symm ▸ lowered.2 other member)]
      congr 1
      · congr 1
        funext node
        by_cases isChild : node = child
        · simp [isChild, absent]
        · simp [isChild]
      · by_cases zero : after child = 0 <;> simp [zero]

/-- Listing a node keeps what is still open in the table and frees the children that are not. -/
theorem listNode_table
    {graph : Graph}
    (wellFormed : graph.WellFormed)
    {listed : List String}
    {id : String}
    (unlisted : id ∉ listed)
    (freed : List String) :
    Countdown.listNode graph ⟨graph.table (graph.openDegree listed), freed⟩ id =
      ⟨graph.table (graph.openDegree (id :: listed)),
        freed ++ (graph.children id).filter fun child =>
          graph.openDegree (id :: listed) child == 0⟩ := by
  have closed := graph.openDegree_eq_add_multiplicity unlisted
  have areNodes : graph.children id ⊆ graph.nodes := by
    intro child isChild
    obtain ⟨edge, isEdge, -, rfl⟩ := mem_children_iff.mp isChild
    exact (wellFormed.closed edge isEdge).2
  have wait : ∀ child ∈ graph.children id, graph.openDegree listed child ≠ 0 := by
    intro child isChild
    have leads := multiplicity_ne_zero_iff.mpr (mem_children_iff.mp isChild)
    rw [closed]
    omega
  have lowered :
      ∀ child ∈ graph.children id,
        graph.openDegree listed child - graph.multiplicity id child =
          graph.openDegree (id :: listed) child := by
    intro child _
    rw [closed, Nat.add_sub_cancel]
  have distinct : (graph.children id).Nodup := nodup_eraseDups _
  rw [Countdown.listNode, foldl_strike_table distinct areNodes wait lowered]
  congr 2
  funext node
  split
  · rfl
  · rename_i notChild
    have noEdge : graph.multiplicity id node = 0 := by
      by_contra some
      exact notChild (mem_children_iff.mpr (multiplicity_ne_zero_iff.mp some))
    rw [closed, noEdge, Nat.add_zero]

/-- Listing a generation leaves the table of the numbers of edges that are then open. -/
theorem foldl_listNode_table
    {graph : Graph}
    (wellFormed : graph.WellFormed)
    {listed generation : List String}
    (distinct : (generation ++ listed).Nodup)
    (freed : List String) :
    generation.foldl (Countdown.listNode graph) ⟨graph.table (graph.openDegree listed), freed⟩ =
      ⟨graph.table (graph.openDegree (generation.reverse ++ listed)),
        freed ++ graph.freed listed generation⟩ := by
  induction generation generalizing listed freed with
  | nil =>
      simp [Graph.freed]
  | cons id generation inductionHypothesis =>
      have unlisted : id ∉ listed := fun member =>
        (List.nodup_cons.mp distinct).1 (List.mem_append_right _ member)
      have restDistinct : (generation ++ id :: listed).Nodup :=
        List.perm_middle.nodup_iff.mpr distinct
      rw [List.foldl_cons, listNode_table wellFormed unlisted, inductionHypothesis restDistinct,
        Graph.freed]
      simp

/-- Listing a generation leaves in the table what is still open, and frees what it should. -/
theorem listGeneration_table
    {graph : Graph}
    (wellFormed : graph.WellFormed)
    {listed generation : List String}
    (distinct : (generation ++ listed).Nodup) :
    Countdown.listGeneration graph (graph.table (graph.openDegree listed)) generation =
      ⟨graph.table (graph.openDegree (generation.reverse ++ listed)),
        graph.freed listed generation⟩ :=
  foldl_listNode_table wellFormed distinct []

/-- Counting down lists the same generations, and keeps in the table what they leave open. -/
theorem countDown_table
    {graph : Graph}
    (wellFormed : graph.WellFormed)
    {listed generation waiting : List String}
    (listing : Listing graph listed generation waiting) :
    graph.countDown (graph.table (graph.openDegree listed)) generation =
      (graph.generations listed generation waiting,
        graph.table (graph.openDegree
          ((graph.generations listed generation waiting).reverse ++ listed))) := by
  fun_induction graph.generations listed generation waiting with
  | case1 listed generation waiting next stillWaiting shorter inductionHypothesis =>
      simp only [List.unattach_reverse, List.unattach_attach] at inductionHypothesis
      have later := inductionHypothesis (listing.next wellFormed)
      cases generation with
      | nil =>
          simp [stillWaiting, next, Graph.freed] at shorter
      | cons id generation =>
          rw [countDown, listGeneration_table wellFormed (listing.nodup_generation wellFormed)]
          simp only [next, later, List.reverse_append, List.append_assoc]
  | case2 listed generation waiting next stillWaiting notShorter =>
      have nothingFreed : graph.freed listed generation = [] :=
        listing.freed_eq_nil wellFormed notShorter
      cases generation with
      | nil =>
          simp [countDown]
      | cons id generation =>
          rw [countDown, listGeneration_table wellFormed (listing.nodup_generation wellFormed),
            nothingFreed]
          simp [countDown]

/-- The table of what the listed nodes leave open is empty exactly if all nodes were listed. -/
theorem table_sortable_eq_nil_iff
    {graph : Graph}
    (wellFormed : graph.WellFormed) :
    graph.table (graph.openDegree graph.sortable.reverse) = [] ↔
      graph.sortable.length = graph.nodes.length := by
  rw [table, List.filter_eq_nil_iff, List.forall_mem_map]
  simp only [bne_iff_ne, not_not, openDegree_eq_zero_iff]
  constructor
  · intro ready
    obtain ⟨rest, covers, -, leftOver⟩ := sortable_sorted wellFormed
    have apart := List.disjoint_of_nodup_append (covers.nodup_iff.mpr wellFormed.distinct)
    -- A node left over has a parent left over, which its being ready excludes.
    have nothingLeft : rest = [] := by
      refine List.eq_nil_iff_forall_not_mem.mpr fun target member => ?_
      obtain ⟨source, sourceMember, leads⟩ := leftOver target member
      have isNode := covers.subset (List.mem_append_right _ member)
      exact apart (List.mem_reverse.mp (ready target isNode source leads)) sourceMember
    rw [nothingLeft, List.append_nil] at covers
    exact covers.length_eq
  · rintro complete target - source ⟨edge, isEdge, rfl, -⟩
    have covers := (isTopological_sortable wellFormed complete).covers
    exact List.mem_reverse.mpr (covers.symm.subset (wellFormed.closed edge isEdge).1)

/-- Counting down orders the nodes as listing them by generations does. -/
theorem countedOrder?_eq
    {graph : Graph}
    (wellFormed : graph.WellFormed) :
    graph.countedOrder? = graph.topologicalOrder? := by
  have inDegree : graph.inDegrees = graph.nodes.map fun id => (id, graph.openDegree [] id) := by
    simp [inDegrees, openDegree]
  have roots : (graph.inDegrees.filter fun entry => entry.2 == 0).map Prod.fst = graph.roots := by
    rw [inDegree, List.filter_map, List.map_map]
    exact List.map_id _
  have waiting :
      (graph.inDegrees.filter fun entry => entry.2 != 0) = graph.table (graph.openDegree []) := by
    rw [inDegree, table]
  have counted := countDown_table wellFormed (Listing.start wellFormed)
  rw [← sortable, List.append_nil] at counted
  simp only [countedOrder?, topologicalOrder?, roots, waiting, counted,
    table_sortable_eq_nil_iff wellFormed]

end GitLanes.Graph
