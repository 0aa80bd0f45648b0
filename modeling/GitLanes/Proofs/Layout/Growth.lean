import GitLanes.Proofs.Layout.Commits

namespace GitLanes

/-!
# Growth of a layout

Directives that come later only add to what is laid out. Commits, edges and the
places of branches stay where they are, with new ones behind them, and the tip
of a branch stays what it is until a commit is made on that branch.
-/

namespace Layout

/-- Two lists of directives are carried out one after the other. -/
theorem replay_append
    (settings : Settings)
    (first second : List Directive) :
    replay settings (first ++ second) = (replay settings first).run settings second :=
  run_append settings (start settings) first second

/-- Behind the commits that exist come those that further directives draw. -/
theorem drop_commits_run
    (settings : Settings)
    (layout : Layout)
    (directives : List Directive) :
    (layout.run settings directives).commits.drop layout.commits.length =
      (layout.drawing settings directives).map Drawn.node := by
  rw [(commits_and_edges_run settings layout directives).1, List.drop_left]

/-- The commits on a branch are followed by those that later directives make on it. -/
theorem commitsOn_run
    (settings : Settings)
    (layout : Layout)
    (directives : List Directive)
    (name : String) :
    (layout.run settings directives).history.commitsOn name =
      layout.history.commitsOn name ++
        (((layout.drawing settings directives).map Drawn.node).filter fun commit =>
          commit.branch == name).map CommitNode.id := by
  have drawn := (commits_and_edges_run settings layout directives).1
  simp only [History.commitsOn, history, drawn, List.filter_append, List.map_append]

/-- A branch keeps its tip as long as no commit is made on it. -/
theorem tip_eq_of_no_commit
    {settings : Settings}
    {first second : List Directive}
    {branch final : Branch}
    (member : branch ∈ (replay settings first).table.toList)
    (finalMember : final ∈ (replay settings (first ++ second)).table.toList)
    (sameName : final.name = branch.name)
    (noCommit :
      ∀ drawn ∈ (replay settings first).drawing settings second,
        drawn.node.branch ≠ branch.name) :
    final.tip = branch.tip := by
  have known : branch.name ∈ (replay settings first).table.names :=
    BranchTable.mem_names_iff.mpr ⟨branch, member, rfl⟩
  have nothingNew :
      (((replay settings first).drawing settings second).map Drawn.node).filter
        (fun commit => commit.branch == branch.name) = [] := by
    rw [List.filter_eq_nil_iff, List.forall_mem_map]
    intro drawn isDrawn
    simpa using noCommit drawn isDrawn
  rw [tip_replay member, tip_replay finalMember, sameName, inheritedTip_append known,
    replay_append, commitsOn_run, nothingNew]
  simp

end Layout

namespace Script

/--
Directives that are added to others leave all commits and edges as they are and
in front, and the branches on their lanes, in their colors and in their order.
Every branch is still found under its name, and it has another tip only if a
commit was added to it.
-/
theorem later_directives_only_add
    (settings : Settings)
    (first second : List Directive) :
    let earlier := Script.history settings ⟨first⟩
    let later := Script.history settings ⟨first ++ second⟩
    earlier.commits <+: later.commits ∧
      earlier.edges <+: later.edges ∧
      earlier.branches.map Branch.place <+: later.branches.map Branch.place ∧
      ∀ branch ∈ earlier.branches,
        ∃ final,
          later.branch? branch.name = some final ∧
            (final.tip ≠ branch.tip →
              ∃ commit ∈ later.commits.drop earlier.commits.length,
                commit.branch = branch.name) := by
  intro earlier later
  have continued : later = ((Layout.replay settings first).run settings second).history :=
    congrArg Layout.history (Layout.replay_append settings first second)
  have drawn := Layout.commits_and_edges_run settings (Layout.replay settings first) second
  have kept := Layout.places_prefix_run settings (Layout.replay settings first) second
  refine ⟨?commits, ?edges, continued ▸ kept, ?tips⟩
  case commits =>
    rw [continued]
    exact ⟨_, drawn.1.symm⟩
  case edges =>
    rw [continued]
    exact ⟨_, drawn.2.symm⟩
  case tips =>
    intro branch member
    obtain ⟨final, finalMember, samePlace⟩ :
        ∃ final ∈ later.branches, final.place = branch.place :=
      exists_branch_of_earlier rfl member
    have sameName : final.name = branch.name := congrArg Prod.fst samePlace
    refine ⟨final, sameName ▸ branch?_eq_some finalMember, ?_⟩
    intro moved
    by_contra noCommit
    refine moved (Layout.tip_eq_of_no_commit member finalMember sameName ?_)
    intro new isNew onBranch
    have added := Layout.drop_commits_run settings (Layout.replay settings first) second
    refine noCommit ⟨new.node, ?_, onBranch⟩
    rw [continued]
    exact added ▸ List.mem_map_of_mem isNew

end Script

end GitLanes
