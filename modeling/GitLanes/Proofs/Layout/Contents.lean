import GitLanes.Proofs.Layout.Consistency
import GitLanes.Proofs.Topology.Paths
import Mathlib.Data.Finset.Dedup
import Mathlib.Data.Finset.Lattice.Lemmas
import Mathlib.Logic.Function.Basic

namespace GitLanes

/-!
# Branches as sets of commits

A repository keeps, for each branch, nothing but the set of the commits it
contains. A layout keeps tips and edges instead: the commits of a branch are its
tip and the ancestors of the tip. Replaying one script in both ways gives every
branch the same commits, as long as no two commits share an identifier; if some
do, the layout can only show more.
-/

/-- The current branch, and the commits of each branch that exists. -/
structure Repository where
  current : String
  contents : String → Option (Finset String)

namespace Repository

/-- The commits of a branch, of which an unknown branch has none. -/
def commitsOf (repository : Repository) (name : String) : Finset String :=
  (repository.contents name).getD ∅

def start : Repository where
  current := mainBranch
  contents := Function.update (fun _ => none) mainBranch (some ∅)

/-- Add a commit to the current branch, together with the commits that it merges. -/
def record (repository : Repository) (id : String) (merged : Finset String) : Repository :=
  { repository with
    contents :=
      Function.update repository.contents repository.current
        (some (insert id (repository.commitsOf repository.current ∪ merged))) }

/-- Make a branch current that has the commits of the branch it was declared on. -/
def declare (repository : Repository) (name : String) : Repository where
  current := name
  contents :=
    Function.update repository.contents name (some (repository.commitsOf repository.current))

def apply (repository : Repository) : Directive → Repository
  | .commit index id _ => repository.record ((given? id).getD (commitId index)) ∅
  | .merge index name => repository.record (mergeId index) (repository.commitsOf name)
  | .branch _ name =>
      if (repository.contents name).isSome then
        { repository with current := name }
      else
        repository.declare name
  | .checkout _ name =>
      if (repository.contents name).isSome then
        { repository with current := name }
      else
        repository
  | .unrecognized _ _ => repository

/-- The repository that a list of directives leads to from the start. -/
def replay (directives : List Directive) : Repository :=
  directives.foldl apply start

theorem replay_concat
    (directives : List Directive)
    (directive : Directive) :
    replay (directives ++ [directive]) = (replay directives).apply directive := by
  simp [replay]

/-- A new commit comes to the current branch, with everything that it merges. -/
theorem commitsOf_record_current
    (repository : Repository)
    (id : String)
    (merged : Finset String) :
    (repository.record id merged).commitsOf repository.current =
      insert id (repository.commitsOf repository.current ∪ merged) := by
  simp [commitsOf, record]

theorem commitsOf_record_other
    {repository : Repository}
    {name : String}
    (otherName : name ≠ repository.current)
    (id : String)
    (merged : Finset String) :
    (repository.record id merged).commitsOf name = repository.commitsOf name := by
  simp [commitsOf, record, otherName]

/-- A new branch has the commits of the branch that it was declared on. -/
theorem commitsOf_declare_new
    (repository : Repository)
    (name : String) :
    (repository.declare name).commitsOf name = repository.commitsOf repository.current := by
  simp [commitsOf, declare]

theorem commitsOf_declare_other
    (repository : Repository)
    {name other : String}
    (otherName : other ≠ name) :
    (repository.declare name).commitsOf other = repository.commitsOf other := by
  simp [commitsOf, declare, otherName]

end Repository

namespace History

/-- The commits that a history shows for a branch: its tip and the ancestors of the tip. -/
def reached (history : History) (branch : Branch) : Finset String :=
  match branch.tip with
  | none => ∅
  | some tip => insert tip (history.graph.ancestors tip).toFinset

/-- A history shows the commits from which a path, perhaps an empty one, leads to the tip. -/
theorem mem_reached_iff
    {history : History}
    {branch : Branch}
    {id : String} :
    id ∈ history.reached branch ↔
      ∃ tip, branch.tip = some tip ∧ Relation.ReflTransGen history.graph.Leads id tip := by
  unfold reached
  cases branch.tip with
  | none =>
      simp
  | some tip =>
      rw [Finset.mem_insert, List.mem_toFinset, Graph.mem_ancestors_iff (Graph.wellFormed_graph _)]
      simp only [Option.some.injEq, exists_eq_left', Relation.reflTransGen_iff_eq_or_transGen]
      constructor
      · intro reached
        rcases reached with same | ⟨-, path⟩
        · exact Or.inl same.symm
        · exact Or.inr path
      · intro emptyOrPath
        rcases emptyOrPath with same | path
        · exact Or.inl same.symm
        · by_cases same : id = tip
          · exact Or.inl same
          · exact Or.inr ⟨same, path⟩

end History

namespace Layout

/-- A commit that is drawn brings its own edges and keeps the others. -/
theorem leads_append_iff
    {layout : Layout}
    {node : CommitNode}
    {incoming : List Edge}
    {source target : String} :
    (layout.append node incoming).history.graph.Leads source target ↔
      layout.history.graph.Leads source target ∨
        ∃ edge ∈ incoming, edge.source = source ∧ edge.target = target := by
  simp [Graph.Leads, History.graph, history, append, or_and_right, exists_or]

theorem path_append
    {layout : Layout}
    {id target : String}
    (path : Relation.ReflTransGen layout.history.graph.Leads id target)
    (node : CommitNode)
    (incoming : List Edge) :
    Relation.ReflTransGen (layout.append node incoming).history.graph.Leads id target :=
  Relation.ReflTransGen.mono (fun _ _ leads => leads_append_iff.mpr (Or.inl leads)) _ _ path

/-- A commit that is drawn continues the paths to the tips of its parent branches. -/
theorem path_to_drawn
    {settings : Settings}
    {layout : Layout}
    {directive : Directive}
    {drawn : Drawn}
    (drawnBy : layout.drawn? settings directive = some drawn)
    {branch : Branch}
    (isParent : branch ∈ layout.parentBranches directive)
    {id : String}
    (reached : id ∈ layout.history.reached branch) :
    Relation.ReflTransGen
      (layout.append drawn.node drawn.incoming).history.graph.Leads id drawn.node.id := by
  obtain ⟨tip, isTip, path⟩ := History.mem_reached_iff.mp reached
  have lastEdge := (exists_incoming_iff drawnBy).mpr ⟨rfl, branch, isParent, isTip⟩
  exact (path_append path drawn.node drawn.incoming).tail
    (leads_append_iff.mpr (Or.inr lastEdge))

/-- Paths to old commits stay as they were when a commit with a new identifier is drawn. -/
theorem path_to_old
    {settings : Settings}
    {layout : Layout}
    (consistent : layout.Consistent)
    {directive : Directive}
    {drawn : Drawn}
    (drawnBy : layout.drawn? settings directive = some drawn)
    (fresh : drawn.node.id ∉ layout.history.ids)
    {id target : String}
    (path :
      Relation.ReflTransGen
        (layout.append drawn.node drawn.incoming).history.graph.Leads id target)
    (isOld : target ∈ layout.history.ids) :
    Relation.ReflTransGen layout.history.graph.Leads id target := by
  induction path with
  | refl =>
      exact .refl
  | tail _ lastEdge inductionHypothesis =>
      rcases leads_append_iff.mp lastEdge with ⟨edge, member, rfl, rfl⟩ | new
      · exact (inductionHypothesis (consistent.edgesKnown edge member).1).tail ⟨edge, member, rfl, rfl⟩
      · have isNew := ((exists_incoming_iff drawnBy).mp new).1
        exact (fresh (isNew ▸ isOld)).elim

/-- Only what its parent branches show leads to a commit with a new identifier. -/
theorem eq_or_reached_of_path_to_drawn
    {settings : Settings}
    {layout : Layout}
    (consistent : layout.Consistent)
    {directive : Directive}
    {drawn : Drawn}
    (drawnBy : layout.drawn? settings directive = some drawn)
    (fresh : drawn.node.id ∉ layout.history.ids)
    {id : String}
    (path :
      Relation.ReflTransGen
        (layout.append drawn.node drawn.incoming).history.graph.Leads id drawn.node.id) :
    id = drawn.node.id ∨
      ∃ branch ∈ layout.parentBranches directive, id ∈ layout.history.reached branch := by
  cases path with
  | refl =>
      exact Or.inl rfl
  | tail path lastEdge =>
      right
      rcases leads_append_iff.mp lastEdge with ⟨edge, member, -, isNew⟩ | new
      · exact (fresh (isNew ▸ (consistent.edgesKnown edge member).2)).elim
      · obtain ⟨-, branch, isParent, isTip⟩ := (exists_incoming_iff drawnBy).mp new
        have isOld :=
          consistent.tipsDrawn branch (parentBranches_subset _ _ isParent) _ isTip
        exact ⟨branch, isParent,
          History.mem_reached_iff.mpr ⟨_, isTip, path_to_old consistent drawnBy fresh path isOld⟩⟩

end Layout

/--
A repository describes a layout when both have the same branches, and each
branch the same commits; where identifiers repeat, the layout may show more.
-/
structure Repository.Describes (repository : Repository) (layout : Layout) : Prop where
  sameCurrent : repository.current = layout.current.name
  sameNames : ∀ name, (repository.contents name).isSome = true ↔ name ∈ layout.table.names
  covered :
    ∀ branch ∈ layout.table.toList,
      repository.commitsOf branch.name ⊆ layout.history.reached branch
  exact :
    layout.history.ids.Nodup →
      ∀ branch ∈ layout.table.toList,
        layout.history.reached branch ⊆ repository.commitsOf branch.name

namespace Repository.Describes

/-- The commits that a drawing directive adds besides the new one are those of its parents. -/
theorem apply_eq_record
    {repository : Repository}
    {layout : Layout}
    (describes : repository.Describes layout)
    {settings : Settings}
    {directive : Directive}
    {drawn : Drawn}
    (drawnBy : layout.drawn? settings directive = some drawn) :
    ∃ merged,
      repository.apply directive = repository.record drawn.node.id merged ∧
        ∀ id,
          id ∈ repository.commitsOf repository.current ∪ merged ↔
            ∃ branch ∈ layout.parentBranches directive, id ∈ repository.commitsOf branch.name := by
  cases directive with
  | commit index id tag =>
      cases drawnBy
      refine ⟨∅, rfl, fun id => ?_⟩
      simp [Layout.parentBranches, Layout.mergedBranch?, describes.sameCurrent]
  | merge index name =>
      cases drawnBy
      refine ⟨repository.commitsOf name, rfl, fun id => ?_⟩
      cases lookup : layout.table.find? name with
      | none =>
          have unknown : repository.contents name = none := by
            rw [← Option.not_isSome_iff_eq_none, describes.sameNames]
            exact BranchTable.find?_eq_none_iff.mp lookup
          simp [Layout.parentBranches, Layout.mergedBranch?, lookup, describes.sameCurrent,
            commitsOf, unknown]
      | some source =>
          have sameName := (BranchTable.mem_of_find? lookup).2
          simp [Layout.parentBranches, Layout.mergedBranch?, lookup, describes.sameCurrent,
            sameName]
  | _ =>
      simp [Layout.drawn?] at drawnBy

/-- A directive that draws something is recorded in the repository as in the layout. -/
theorem draw
    {repository : Repository}
    {layout : Layout}
    (describes : repository.Describes layout)
    (consistent : layout.Consistent)
    {settings : Settings}
    {directive : Directive}
    {drawn : Drawn}
    (drawnBy : layout.drawn? settings directive = some drawn) :
    (repository.apply directive).Describes (layout.append drawn.node drawn.incoming) := by
  obtain ⟨merged, recorded, mem_recorded_iff⟩ := describes.apply_eq_record drawnBy
  have parentListed := Layout.parentBranches_subset layout directive
  rw [recorded]
  refine ⟨describes.sameCurrent, ?sameNames, ?covered, ?exact⟩
  case sameNames =>
    intro name
    rw [Layout.append, BranchTable.names_advance, ← describes.sameNames]
    by_cases isCurrent : name = repository.current
    · have currentKnown : (repository.contents repository.current).isSome = true := by
        rw [describes.sameNames, describes.sameCurrent]
        exact layout.table.current_name_mem_names
      simp [record, isCurrent, currentKnown]
    · simp [record, isCurrent]
  case covered =>
    intro branch member id isCommit
    rcases Layout.branch_of_append consistent.distinctNames member with
      ⟨sameName, newTip⟩ | ⟨old, otherName⟩
    · rw [sameName, ← describes.sameCurrent, commitsOf_record_current, Finset.mem_insert,
        mem_recorded_iff] at isCommit
      refine History.mem_reached_iff.mpr ⟨drawn.node.id, newTip, ?_⟩
      rcases isCommit with isNew | ⟨parent, isParent, inParent⟩
      · rw [isNew]
      · exact Layout.path_to_drawn drawnBy isParent
          (describes.covered parent (parentListed isParent) inParent)
    · rw [← describes.sameCurrent] at otherName
      rw [commitsOf_record_other otherName] at isCommit
      obtain ⟨tip, isTip, path⟩ := History.mem_reached_iff.mp (describes.covered branch old isCommit)
      exact History.mem_reached_iff.mpr
        ⟨tip, isTip, Layout.path_append path drawn.node drawn.incoming⟩
  case exact =>
    intro distinct branch member id isReached
    rw [Layout.ids_append, ← List.concat_eq_append, List.nodup_concat] at distinct
    obtain ⟨fresh, oldDistinct⟩ := distinct
    obtain ⟨tip, isTip, path⟩ := History.mem_reached_iff.mp isReached
    rcases Layout.branch_of_append consistent.distinctNames member with
      ⟨sameName, newTip⟩ | ⟨old, otherName⟩
    · rw [newTip] at isTip
      cases isTip
      rw [sameName, ← describes.sameCurrent, commitsOf_record_current, Finset.mem_insert,
        mem_recorded_iff]
      rcases Layout.eq_or_reached_of_path_to_drawn consistent drawnBy fresh path with
        isNew | ⟨parent, isParent, inParent⟩
      · exact Or.inl isNew
      · exact Or.inr ⟨parent, isParent,
          describes.exact oldDistinct parent (parentListed isParent) inParent⟩
    · -- Only a new identifier is sure not to extend what the other tips reach.
      rw [← describes.sameCurrent] at otherName
      rw [commitsOf_record_other otherName]
      have isOld := consistent.tipsDrawn branch old tip isTip
      exact describes.exact oldDistinct branch old
        (History.mem_reached_iff.mpr
          ⟨tip, isTip, Layout.path_to_old consistent drawnBy fresh path isOld⟩)

/-- A new branch has the commits of the branch it was declared on, in both descriptions. -/
theorem create
    {repository : Repository}
    {layout : Layout}
    (describes : repository.Describes layout)
    (settings : Settings)
    (index : Int)
    {name : String}
    (unknown : name ∉ layout.table.names) :
    (repository.apply (.branch index name)).Describes (layout.create settings name) := by
  have absent : (repository.contents name).isSome = false := by
    rw [← Bool.not_eq_true, describes.sameNames]
    exact unknown
  have declared : repository.apply (.branch index name) = repository.declare name := by
    simp [apply, absent]
  have otherName
      {branch : Branch}
      (old : branch ∈ layout.table.toList) :
      branch.name ≠ name :=
    fun same => unknown (same ▸ List.mem_map_of_mem old)
  have inherited :
      (repository.declare name).commitsOf (layout.newBranch settings name).name =
        repository.commitsOf layout.current.name := by
    rw [← describes.sameCurrent]
    exact repository.commitsOf_declare_new name
  rw [declared]
  refine ⟨rfl, ?sameNames, ?covered, ?exact⟩
  case sameNames =>
    intro other
    rw [Layout.create, BranchTable.names_create, List.mem_append, ← describes.sameNames]
    by_cases isNew : other = name
    · simp [declare, isNew, Layout.newBranch]
    · simp [declare, isNew, Layout.newBranch]
  case covered =>
    intro branch member
    rcases Layout.mem_create_iff.mp member with old | rfl
    · rw [commitsOf_declare_other repository (otherName old)]
      exact describes.covered branch old
    · rw [inherited]
      exact describes.covered _ layout.table.current_mem_toList
  case exact =>
    intro distinct branch member
    rcases Layout.mem_create_iff.mp member with old | rfl
    · rw [commitsOf_declare_other repository (otherName old)]
      exact describes.exact distinct branch old
    · rw [inherited]
      exact describes.exact distinct _ layout.table.current_mem_toList

/-- A branch that is made current in the layout is made current in the repository. -/
theorem switch
    {repository : Repository}
    {layout : Layout}
    (describes : repository.Describes layout)
    {directive : Directive}
    {name : String}
    {table : BranchTable}
    (asked : directive.asked? = some name)
    (found : layout.table.switch? name = some table) :
    (repository.apply directive).Describes { layout with table } := by
  have sameBranches := BranchTable.toList_of_switch? found
  have isKnown : (repository.contents name).isSome = true := by
    rw [describes.sameNames]
    exact BranchTable.mem_names_of_switch? found
  have switched : repository.apply directive = { repository with current := name } := by
    cases directive with
    | branch index target =>
        cases asked
        simp [apply, isKnown]
    | checkout index target =>
        cases asked
        simp [apply, isKnown]
    | _ =>
        cases asked
  rw [switched]
  refine ⟨(BranchTable.current_name_of_switch? found).symm, ?_, ?_, ?_⟩
  · rw [BranchTable.names_of_switch? found]
    exact describes.sameNames
  · rw [sameBranches]
    exact describes.covered
  · rw [sameBranches]
    exact describes.exact

/-- Every directive does the same to the layout and to the repository. -/
theorem apply
    {repository : Repository}
    {layout : Layout}
    (describes : repository.Describes layout)
    (consistent : layout.Consistent)
    (settings : Settings)
    (directive : Directive) :
    (repository.apply directive).Describes (layout.apply settings directive) := by
  have moved := Layout.move_apply settings layout directive
  generalize layout.apply settings directive = next at moved
  cases moved with
  | draw drawnBy =>
      exact describes.draw consistent drawnBy
  | create index name unknown =>
      exact describes.create settings index unknown
  | switch asked found =>
      exact describes.switch asked found
  | stay undrawn undeclared unknown =>
      have same : repository.apply directive = repository := by
        cases directive with
        | checkout index name =>
            have absent := unknown name rfl
            rw [← describes.sameNames] at absent
            simp [Repository.apply, absent]
        | unrecognized index text =>
            rfl
        | branch index name =>
            cases undeclared
        | _ =>
            simp [Layout.drawn?] at undrawn
      rw [same]
      exact describes

end Repository.Describes

/-- Replaying a script as a repository describes its layout. -/
theorem describes_replay
    (settings : Settings)
    (directives : List Directive) :
    (Repository.replay directives).Describes (Layout.replay settings directives) := by
  induction directives using List.reverseRecOn with
  | nil =>
      refine ⟨rfl, ?_, ?_, ?_⟩
      · intro name
        by_cases isMain : name = mainBranch
        · simp [Repository.replay, Repository.start, Layout.replay, Layout.run, Layout.start,
            BranchTable.names, isMain]
        · simp [Repository.replay, Repository.start, Layout.replay, Layout.run, Layout.start,
            BranchTable.names, isMain]
      · simp [Layout.replay, Layout.run, Layout.start, Repository.commitsOf, Repository.replay,
          Repository.start]
      · simp [Layout.replay, Layout.run, Layout.start, History.reached]
  | append_singleton directives directive inductionHypothesis =>
      rw [Repository.replay_concat, Layout.replay_concat]
      exact inductionHypothesis.apply (Layout.consistent_replay settings directives)
        settings directive

namespace Script

/--
The layout of a script refines its repository.

Each branch of the layout exists in the repository, and everything the
repository holds for it is reached from its tip. If no two commits share an
identifier, nothing else is.
-/
theorem history_refines_repository
    (settings : Settings)
    (script : Script) :
    ∀ branch ∈ (script.history settings).branches,
      ∃ contents,
        (Repository.replay script.directives).contents branch.name = some contents ∧
          contents ⊆ (script.history settings).reached branch ∧
          ((script.history settings).ids.Nodup →
            contents = (script.history settings).reached branch) := by
  intro branch member
  have describes := describes_replay settings script.directives
  have isKnown := (describes.sameNames branch.name).mpr (List.mem_map_of_mem member)
  obtain ⟨contents, found⟩ := Option.isSome_iff_exists.mp isKnown
  have sameContents :
      (Repository.replay script.directives).commitsOf branch.name = contents := by
    rw [Repository.commitsOf, found, Option.getD_some]
  have covered := describes.covered branch member
  rw [sameContents] at covered
  refine ⟨contents, found, covered, fun distinct => ?_⟩
  have exact := describes.exact distinct branch member
  rw [sameContents] at exact
  exact Finset.Subset.antisymm covered exact

/-- A script in which a branch is declared after the first commit and merged after its own. -/
def forkAndMerge : Script where
  directives := [
    .commit 0 (some "A") none,
    .branch 1 "dev",
    .commit 2 (some "B") none,
    .checkout 3 "main",
    .merge 4 "dev"
  ]

theorem history_refines_repository_after_merge :
    ⟨"main", 0, "#1E90FF", some "merge-4"⟩ ∈ (forkAndMerge.history {}).branches ∧
      (Repository.replay forkAndMerge.directives).contents "main" =
        some {"A", "B", "merge-4"} ∧
      (forkAndMerge.history {}).reached ⟨"main", 0, "#1E90FF", some "merge-4"⟩ =
        {"A", "B", "merge-4"} := by
  have member :
      ⟨"main", 0, "#1E90FF", some "merge-4"⟩ ∈ (forkAndMerge.history {}).branches := by
    decide
  have distinct : (forkAndMerge.history {}).ids.Nodup := by
    decide
  have replayed :
      (Repository.replay forkAndMerge.directives).contents "main" =
        some {"A", "B", "merge-4"} := by
    decide
  obtain ⟨contents, found, -, same⟩ := history_refines_repository {} forkAndMerge _ member
  have sameContents := Option.some.inj (found.symm.trans replayed)
  exact ⟨member, replayed, (same distinct).symm.trans sameContents⟩

end Script

end GitLanes
