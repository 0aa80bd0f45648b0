import GitLanes.Proofs.Layout.Consistency
import Mathlib.Data.List.Induction

namespace GitLanes

/-!
# Timelines of branches

The commits of a branch form an unbroken line: each continues the one before it,
and the first continues the commit at which the branch was declared. So the tip
of a branch is its last commit, or the tip that it has inherited, whatever was
checked out, declared again or merged in between.
-/

namespace Layout

/-- A directive that draws something declares no branch. -/
theorem declared?_of_drawn?
    {settings : Settings}
    {layout : Layout}
    {directive : Directive}
    {drawn : Drawn}
    (drawnBy : layout.drawn? settings directive = some drawn) :
    directive.declared? = none := by
  cases directive with
  | branch index name =>
      simp [drawn?] at drawnBy
  | _ =>
      rfl

/-- The names that are known after a directive are the old ones and the one it declares. -/
theorem mem_names_apply_iff
    {settings : Settings}
    {layout : Layout}
    {directive : Directive}
    {name : String} :
    name ∈ (layout.apply settings directive).table.names ↔
      name ∈ layout.table.names ∨ directive.declared? = some name := by
  have moved := move_apply settings layout directive
  generalize layout.apply settings directive = next at moved
  cases moved with
  | draw drawnBy =>
      simp [append, declared?_of_drawn? drawnBy]
  | create index created unknown =>
      simp [create, newBranch, Directive.declared?, eq_comm]
  | switch asked found =>
      have known := BranchTable.mem_names_of_switch? found
      rw [BranchTable.names_of_switch? found]
      refine ⟨Or.inl, ?_⟩
      intro oldOrDeclared
      rcases oldOrDeclared with old | declares
      · exact old
      · cases directive with
        | branch index declared =>
            cases asked
            cases declares
            exact known
        | _ =>
            cases declares
  | stay undrawn undeclared unknown =>
      simp [undeclared]

/-- The known names are that of the main branch and those that were declared. -/
theorem mem_names_replay_iff
    {settings : Settings}
    {directives : List Directive}
    {name : String} :
    name ∈ (replay settings directives).table.names ↔
      name = mainBranch ∨ ∃ directive ∈ directives, directive.declared? = some name := by
  induction directives using List.reverseRecOn with
  | nil =>
      simp [replay, run, start, BranchTable.names]
  | append_singleton directives directive inductionHypothesis =>
      rw [replay_concat, mem_names_apply_iff, inductionHypothesis]
      simp only [List.mem_append, List.mem_singleton]
      constructor
      · intro known
        rcases known with (isMain | ⟨earlier, member, declares⟩) | declares
        · exact Or.inl isMain
        · exact Or.inr ⟨earlier, Or.inl member, declares⟩
        · exact Or.inr ⟨directive, Or.inr rfl, declares⟩
      · intro mainOrDeclared
        rcases mainOrDeclared with isMain | ⟨other, member | rfl, declares⟩
        · exact Or.inl (Or.inl isMain)
        · exact Or.inl (Or.inr ⟨other, member, declares⟩)
        · exact Or.inr declares

/--
The tip that a branch has inherited: the one that the current branch had just
before the first declaration of the name. The main branch has inherited none.
-/
def inheritedTip
    (settings : Settings)
    (directives : List Directive)
    (name : String) :
    Option String :=
  if name = mainBranch then
    none
  else
    (replay settings
      (directives.takeWhile fun directive => directive.declared? != some name)).current.tip

/-- What a known branch has inherited does not depend on later directives. -/
theorem inheritedTip_append
    {settings : Settings}
    {directives : List Directive}
    {name : String}
    (known : name ∈ (replay settings directives).table.names)
    (later : List Directive) :
    inheritedTip settings (directives ++ later) name = inheritedTip settings directives name := by
  unfold inheritedTip
  split
  · rfl
  · rename_i notMain
    have declared := (mem_names_replay_iff.mp known).resolve_left notMain
    obtain ⟨directive, member, declares⟩ := declared
    rw [List.takeWhile_append, if_neg]
    intro sameLength
    have whole := (List.takeWhile_prefix _).eq_of_length sameLength
    have undeclared := List.takeWhile_eq_self_iff.mp whole directive member
    simp [declares] at undeclared

/-- A branch inherits the tip that is current when it is declared for the first time. -/
theorem inheritedTip_of_unknown
    {settings : Settings}
    {directives : List Directive}
    {name : String}
    (unknown : name ∉ (replay settings directives).table.names)
    (index : Int)
    (later : List Directive) :
    inheritedTip settings (directives ++ .branch index name :: later) name =
      (replay settings directives).current.tip := by
  rw [mem_names_replay_iff, not_or] at unknown
  have undeclared :
      ∀ directive ∈ directives, (directive.declared? != some name) = true := by
    intro directive member
    rw [bne_iff_ne]
    exact fun declares => unknown.2 ⟨directive, member, declares⟩
  rw [inheritedTip, if_neg unknown.1, List.takeWhile_append_of_pos undeclared]
  simp [Directive.declared?]

/-- A new commit is the last one on its own branch, and the other branches have none more. -/
theorem commitsOn_append
    (layout : Layout)
    (node : CommitNode)
    (incoming : List Edge)
    (name : String) :
    (layout.append node incoming).history.commitsOn name =
      layout.history.commitsOn name ++ if node.branch = name then [node.id] else [] := by
  simp only [History.commitsOn, history, append, List.filter_append, List.map_append]
  by_cases own : node.branch = name <;> simp [own]

/-- A branch that does not exist has no commits. -/
theorem commitsOn_eq_nil
    {layout : Layout}
    (consistent : layout.Consistent)
    {name : String}
    (unknown : name ∉ layout.table.names) :
    layout.history.commitsOn name = [] := by
  rw [History.commitsOn, List.map_eq_nil_iff, List.filter_eq_nil_iff]
  intro commit member onBranch
  exact unknown (beq_iff_eq.mp onBranch ▸ consistent.commitsOwned commit member)

/-- The tip of a branch is its last commit, or else the tip that it has inherited. -/
theorem tip_replay
    {settings : Settings}
    {directives : List Directive}
    {branch : Branch}
    (member : branch ∈ (replay settings directives).table.toList) :
    branch.tip =
      ((replay settings directives).history.commitsOn branch.name).getLast?.or
        (inheritedTip settings directives branch.name) := by
  induction directives using List.reverseRecOn generalizing branch with
  | nil =>
      rw [List.mem_singleton.mp member]
      rfl
  | append_singleton directives directive inductionHypothesis =>
      have consistent := consistent_replay settings directives
      -- The branches known so far keep what they have inherited, whatever the last directive is.
      have inheritedBefore
          {old : Branch}
          (known : old ∈ (replay settings directives).table.toList) :
          inheritedTip settings (directives ++ [directive]) old.name =
            inheritedTip settings directives old.name :=
        inheritedTip_append (BranchTable.mem_names_iff.mpr ⟨old, known, rfl⟩) [directive]
      rw [replay_concat] at member ⊢
      have moved := move_apply settings (replay settings directives) directive
      generalize (replay settings directives).apply settings directive = next at moved member
      cases moved with
      | draw drawnBy =>
          obtain ⟨id, label, isMerge, nodeShape⟩ := node_of_drawn? drawnBy
          have onCurrent := congrArg CommitNode.branch nodeShape
          rw [commitsOn_append, onCurrent]
          rcases branch_of_append consistent.distinctNames member with
            ⟨sameName, newTip⟩ | ⟨old, otherName⟩
          · simp [nextNode, sameName, newTip]
          · rw [inheritedBefore old, inductionHypothesis old]
            simp [nextNode, Ne.symm otherName]
      | create index name unknown =>
          rcases mem_create_iff.mp member with old | rfl
          · rw [inheritedBefore old]
            exact inductionHypothesis old
          · change (replay settings directives).current.tip =
              ((replay settings directives).history.commitsOn name).getLast?.or _
            rw [commitsOn_eq_nil consistent unknown]
            exact (inheritedTip_of_unknown unknown index []).symm
      | switch asked found =>
          simp only [BranchTable.toList_of_switch? found] at member
          rw [inheritedBefore member]
          exact inductionHypothesis member
      | stay =>
          rw [inheritedBefore member]
          exact inductionHypothesis member

/-- The own line of a commit starts at the tip of the current branch, if there is one. -/
theorem ownLines_of_drawn?
    {settings : Settings}
    {layout : Layout}
    {directive : Directive}
    {drawn : Drawn}
    (drawnBy : layout.drawn? settings directive = some drawn) :
    drawn.ownLines =
      layout.current.tip.toList.map fun source =>
        ⟨source, drawn.node.id, drawn.node.color, false⟩ := by
  obtain ⟨id, label, isMerge, nodeShape⟩ := node_of_drawn? drawnBy
  have sameColor : drawn.node.color = layout.current.color := by
    rw [nodeShape]
    rfl
  have noMergeLine
      (branch : Branch)
      (target : String) :
      (edgeFrom branch target true).filter (fun edge => !edge.isMergeLine) = [] := by
    unfold edgeFrom
    cases branch.tip <;> rfl
  have allOwn
      (branch : Branch)
      (target : String) :
      (edgeFrom branch target false).filter (fun edge => !edge.isMergeLine) =
        branch.tip.toList.map fun source => ⟨source, target, branch.color, false⟩ := by
    unfold edgeFrom
    cases branch.tip <;> rfl
  rw [Drawn.ownLines, incoming_of_drawn? drawnBy, List.filter_append, allOwn, sameColor]
  cases layout.mergedBranch? directive <;> simp [noMergeLine]

/-- A directive that draws changes no branch but the current one. -/
theorem find?_apply_of_drawn?
    {settings : Settings}
    {layout : Layout}
    (consistent : layout.Consistent)
    {directive : Directive}
    {drawn : Drawn}
    (drawnBy : layout.drawn? settings directive = some drawn)
    {name : String}
    (otherName : name ≠ layout.current.name) :
    (layout.apply settings directive).table.find? name = layout.table.find? name := by
  have distinctAfter := (consistent.apply settings directive).distinctNames
  rw [apply_eq_append drawnBy] at distinctAfter ⊢
  apply Option.ext
  intro branch
  rw [BranchTable.find?_eq_some_iff distinctAfter,
    BranchTable.find?_eq_some_iff consistent.distinctNames, append,
    BranchTable.mem_toList_advance_iff consistent.distinctNames]
  constructor
  · intro found
    rcases found with ⟨rfl | ⟨old, -⟩, hasName⟩
    · exact (otherName hasName.symm).elim
    · exact ⟨old, hasName⟩
  · rintro ⟨old, hasName⟩
    exact ⟨Or.inr ⟨old, hasName ▸ otherName⟩, hasName⟩

end Layout

/-- The last member of a list that passes a test, when none behind it does. -/
private theorem getLast?_filter_take
    {α : Type}
    {items : List α}
    {passes : α → Bool}
    {first second : Nat}
    {item : α}
    (inFront : first < second)
    (found : items[first]? = some item)
    (accepted : passes item = true)
    (gap :
      ∀ between,
        first < between →
        between < second →
        ∀ other ∈ items[between]?, passes other = false) :
    ((items.take second).filter passes).getLast? = some item := by
  obtain ⟨inBounds, rfl⟩ := List.getElem?_eq_some_iff.mp found
  have shape :
      items.take second =
        items.take first ++ items[first] :: (items.take second).drop (first + 1) := by
    have inTake : first < (items.take second).length := by
      simp only [List.length_take]
      omega
    have split := (List.take_append_drop first (items.take second)).symm
    rwa [List.drop_eq_getElem_cons inTake, List.getElem_take, List.take_take,
      Nat.min_eq_left (Nat.le_of_lt inFront)] at split
  have nothingBehind : ((items.take second).drop (first + 1)).filter passes = [] := by
    rw [List.filter_eq_nil_iff]
    intro other member
    obtain ⟨offset, found⟩ := List.mem_iff_getElem?.mp member
    rw [List.getElem?_drop] at found
    by_cases inFront : first + 1 + offset < second
    · rw [List.getElem?_take_of_lt inFront] at found
      simpa using gap _ (by omega) inFront other found
    · rw [List.getElem?_take_eq_none (by omega)] at found
      cases found
  rw [shape, List.filter_append, List.filter_cons_of_pos accepted, nothingBehind]
  simp

private theorem getLast?_filter_branch_eq_none
    {commits : List CommitNode}
    {name : String}
    (noCommit : ∀ commit ∈ commits, commit.branch ≠ name) :
    (commits.filter fun commit => commit.branch == name).getLast? = none := by
  rw [List.getLast?_eq_none_iff, List.filter_eq_nil_iff]
  intro commit member
  simpa using noCommit commit member

namespace Script

/-- The tip that a branch of a script has inherited. -/
def inheritedTip (settings : Settings) (script : Script) (name : String) : Option String :=
  Layout.inheritedTip settings script.directives name

/-- The tip of a branch is its last commit or else the one it inherited. -/
theorem tip_eq_or_inheritedTip
    {settings : Settings}
    {script : Script}
    {branch : Branch}
    (member : branch ∈ (script.history settings).branches) :
    branch.tip =
      (((script.history settings).commits.filter fun commit =>
          commit.branch == branch.name).getLast?.map CommitNode.id).or
        (script.inheritedTip settings branch.name) := by
  rw [← List.getLast?_map]
  exact Layout.tip_replay member

/--
A commit continues the last earlier commit of its branch, or else the tip that
its branch has inherited.
-/
theorem ownLines_of_drawing
    {settings : Settings}
    {script : Script}
    {position : Nat}
    {block : Drawn}
    (listed : (script.drawing settings)[position]? = some block) :
    block.ownLines =
      (((((script.history settings).commits.take position).filter fun commit =>
          commit.branch == block.node.branch).getLast?.map CommitNode.id).or
        (script.inheritedTip settings block.node.branch)).toList.map fun source =>
          ⟨source, block.node.id, block.node.color, false⟩ := by
  obtain ⟨earlier, directive, later, shape, drawnBy, earlierCommits, -⟩ :=
    exists_directive_of_drawing listed
  obtain ⟨id, label, isMerge, nodeShape⟩ := Layout.node_of_drawn? drawnBy
  have onCurrent : block.node.branch = (Layout.replay settings earlier).current.name := by
    rw [nodeShape]
    rfl
  have member := (Layout.replay settings earlier).table.current_mem_toList
  have known := (Layout.replay settings earlier).table.current_name_mem_names
  rw [Layout.ownLines_of_drawn? drawnBy, onCurrent, Layout.current, Layout.tip_replay member,
    inheritedTip, shape, Layout.inheritedTip_append known, History.commitsOn, Layout.history,
    earlierCommits, List.getLast?_map]

/--
The tip of a branch is its last commit, or the tip it has inherited as long as
it has no commit. Each commit of a branch continues the one before it, and the
first one continues the inherited tip, if there is one. Merging a branch that is
not current leaves it as it was.
-/
theorem branches_are_unbroken_timelines
    (settings : Settings)
    (script : Script) :
    (script.drawing settings).map Drawn.node = (script.history settings).commits ∧
      (script.drawing settings).flatMap Drawn.incoming = (script.history settings).edges ∧
      (∀ branch ∈ (script.history settings).branches,
        (∀ node,
          ((script.history settings).commits.filter fun commit =>
              commit.branch == branch.name).getLast? = some node →
            branch.tip = some node.id) ∧
          ((∀ commit ∈ (script.history settings).commits, commit.branch ≠ branch.name) →
            branch.tip = script.inheritedTip settings branch.name)) ∧
      (∀ (first second : Nat) (node : CommitNode) (block : Drawn),
        first < second →
          (script.history settings).commits[first]? = some node →
          (script.drawing settings)[second]? = some block →
          node.branch = block.node.branch →
          (∀ between,
            first < between →
            between < second →
            ∀ other ∈ (script.history settings).commits[between]?,
              other.branch ≠ block.node.branch) →
          block.ownLines = [⟨node.id, block.node.id, block.node.color, false⟩]) ∧
      (∀ (position : Nat) (block : Drawn),
        (script.drawing settings)[position]? = some block →
          (∀ commit ∈ (script.history settings).commits.take position,
            commit.branch ≠ block.node.branch) →
          block.ownLines =
            (script.inheritedTip settings block.node.branch).toList.map fun source =>
              ⟨source, block.node.id, block.node.color, false⟩) ∧
      ∀ (earlier : List Directive) (index : Int) (name : String),
        name ≠ (Layout.replay settings earlier).current.name →
          (Script.history settings ⟨earlier ++ [.merge index name]⟩).branch? name =
            (Script.history settings ⟨earlier⟩).branch? name := by
  refine ⟨(commits_eq_map_drawing settings script).symm,
    (edges_eq_flatMap_drawing settings script).symm, ?tips, ?consecutive, ?first, ?merge⟩
  case tips =>
    intro branch member
    constructor
    · intro node isLast
      rw [tip_eq_or_inheritedTip member, isLast]
      rfl
    · intro noCommit
      rw [tip_eq_or_inheritedTip member, getLast?_filter_branch_eq_none noCommit]
      rfl
  case consecutive =>
    intro first second node block inFront found listed sameBranch gap
    have last :
        (((script.history settings).commits.take second).filter fun commit =>
            commit.branch == block.node.branch).getLast? = some node := by
      apply getLast?_filter_take inFront found (by simpa using sameBranch)
      intro between after before other member
      simpa using gap between after before other member
    rw [ownLines_of_drawing listed, last]
    rfl
  case first =>
    intro position block listed noCommit
    rw [ownLines_of_drawing listed, getLast?_filter_branch_eq_none noCommit]
    rfl
  case merge =>
    intro earlier index name otherName
    obtain ⟨drawn, drawnBy⟩ :
        ∃ drawn, (Layout.replay settings earlier).drawn? settings (.merge index name) =
          some drawn :=
      ⟨_, rfl⟩
    have kept :=
      Layout.find?_apply_of_drawn? (Layout.consistent_replay settings earlier) drawnBy otherName
    rw [← Layout.replay_concat] at kept
    exact kept

end Script

end GitLanes
