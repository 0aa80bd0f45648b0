import GitLanes.Proofs.Layout.Colors
import GitLanes.Proofs.Layout.Drawing
import GitLanes.Proofs.Topology.Shape

namespace GitLanes

/-!
# Presentation and topology

Distances, colors and tags are for show. Laying a script out and taking places
and colors off afterwards is the same as laying it out without distances and in
no color, so any two layouts of a script are one behind their looks. Tags end in
the labels of commits and nowhere else. Neither can change what a history is
asked about its graph.
-/

/-- A branch without its color. -/
def Branch.bare (branch : Branch) : Branch :=
  { branch with color := "" }

/-- A commit without its place and its color. -/
def CommitNode.bare (commit : CommitNode) : CommitNode :=
  { commit with x := .int 0, y := .int 0, color := "" }

/-- A history without places and colors. -/
def History.bare (history : History) : History where
  branches := history.branches.map Branch.bare
  commits := history.commits.map CommitNode.bare
  edges := history.edges.map Edge.bare

/-- A commit without its label, or a merge as it is. -/
def CommitNode.unlabelled (commit : CommitNode) : CommitNode :=
  { commit with label := if commit.isMerge then commit.label else "" }

/-- A history without the labels of its commits; merges keep theirs. -/
def History.unlabelled (history : History) : History :=
  { history with commits := history.commits.map CommitNode.unlabelled }

/-- A directive without the tag that a commit may bear. -/
def Directive.untagged : Directive → Directive
  | .commit index id _ => .commit index id none
  | directive => directive

/-! Layouts without distances and colors. -/

/-- Settings without distances and colors. -/
def Settings.blank : Settings where
  spacingX := .int 0
  spacingY := .int 0
  palette := ⟨[""], List.cons_ne_nil _ _⟩

theorem Settings.color_blank (index : Int) :
    Settings.blank.palette.color index = "" :=
  List.mem_singleton.mp (Settings.blank.palette.color_mem index)

theorem Quantity.times_zero (count : Int) :
    (Quantity.int 0).times count = .int 0 :=
  congrArg Quantity.int (Int.mul_zero count)

namespace BranchTable

/-- A table whose branches have no colors. -/
def bare (table : BranchTable) : BranchTable where
  before := table.before.map Branch.bare
  current := table.current.bare
  after := table.after.map Branch.bare

/-- Stripping a table strips each of its branches. -/
theorem toList_bare (table : BranchTable) :
    table.bare.toList = table.toList.map Branch.bare := by
  simp [toList, bare]

/-- A branch is found under the same name in the stripped table. -/
theorem find?_bare
    (table : BranchTable)
    (name : String) :
    table.bare.find? name = (table.find? name).map Branch.bare := by
  rw [find?, toList_bare, List.find?_map]
  rfl

theorem switch?_bare
    (table : BranchTable)
    (name : String) :
    table.bare.switch? name = (table.switch? name).map bare := by
  have named : (fun branch : Branch => branch.name != name) ∘ Branch.bare =
      fun branch => branch.name != name :=
    rfl
  simp only [switch?, toList_bare, List.dropWhile_map, List.takeWhile_map, named]
  cases table.toList.dropWhile fun branch => branch.name != name <;> rfl

theorem create_bare
    (table : BranchTable)
    (branch : Branch) :
    (table.create branch).bare = table.bare.create branch.bare := by
  rw [create, create, toList_bare]
  rfl

/-- Moving the tip of a branch commutes with stripping. -/
theorem advance_bare
    (table : BranchTable)
    (id : String) :
    (table.advance id).bare = table.bare.advance id :=
  rfl

end BranchTable

namespace Layout

/-- A layout without places and colors. -/
def bare (layout : Layout) : Layout where
  table := layout.table.bare
  nextLane := layout.nextLane
  step := layout.step
  commits := layout.commits.map CommitNode.bare
  edges := layout.edges.map Edge.bare

theorem table_bare (layout : Layout) :
    layout.bare.table = layout.table.bare :=
  rfl

theorem history_bare (layout : Layout) :
    layout.bare.history = layout.history.bare := by
  simp only [history, bare, branches, History.bare, BranchTable.toList_bare]

/-- The next commit differs in its presentation alone. -/
theorem bare_nextNode
    (settings : Settings)
    (layout : Layout)
    (id label : String)
    (isMerge : Bool) :
    (layout.nextNode settings id label isMerge).bare =
      layout.bare.nextNode .blank id label isMerge := by
  simp only [nextNode, Settings.blank, Quantity.times_zero]
  rfl

/-- An edge differs in its color alone. -/
theorem map_bare_edgeFrom
    (branch : Branch)
    (target : String)
    (isMergeLine : Bool) :
    (edgeFrom branch target isMergeLine).map Edge.bare =
      edgeFrom branch.bare target isMergeLine := by
  obtain ⟨name, laneIndex, color, tip⟩ := branch
  cases tip <;> rfl

/-- Adding a commit and its edges commutes with stripping. -/
theorem bare_append
    (layout : Layout)
    (node : CommitNode)
    (incoming : List Edge) :
    (layout.append node incoming).bare =
      layout.bare.append node.bare (incoming.map Edge.bare) := by
  simp only [append, bare, BranchTable.advance_bare, List.map_append, List.map_singleton]
  rfl

/-- What a directive does behind its looks is what it does without settings. -/
theorem bare_apply
    (settings : Settings)
    (layout : Layout)
    (directive : Directive) :
    (layout.apply settings directive).bare = layout.bare.apply .blank directive := by
  cases directive with
  | commit index id tag =>
      simp only [apply, commit, bare_append, bare_nextNode, map_bare_edgeFrom]
      rfl
  | branch index name =>
      simp only [apply, branch, table_bare, BranchTable.switch?_bare]
      cases layout.table.switch? name with
      | none =>
          simp only [Option.map_none, bare, BranchTable.create_bare, Branch.bare,
            Settings.color_blank]
          rfl
      | some table =>
          rfl
  | checkout index name =>
      simp only [apply, checkout, table_bare, BranchTable.switch?_bare]
      cases layout.table.switch? name <;> rfl
  | merge index name =>
      simp only [apply, merge, bare_append, bare_nextNode, List.map_append, map_bare_edgeFrom,
        table_bare, BranchTable.find?_bare]
      cases layout.table.find? name with
      | none =>
          rfl
      | some source =>
          simp only [Option.map_some, map_bare_edgeFrom]
          rfl
  | unrecognized index text =>
      rfl

/-- A list of directives does the same to a stripped layout. -/
theorem bare_run
    (settings : Settings)
    (layout : Layout)
    (directives : List Directive) :
    (layout.run settings directives).bare = layout.bare.run .blank directives := by
  induction directives generalizing layout with
  | nil =>
      rfl
  | cons directive rest inductionHypothesis =>
      rw [run, List.foldl_cons, ← run, inductionHypothesis, bare_apply]
      rfl

theorem bare_start (settings : Settings) :
    (start settings).bare = start .blank := by
  simp only [start, bare, BranchTable.bare, BranchTable.single, Branch.bare,
    Settings.color_blank, List.map_nil]

end Layout

/-- Behind places and colors there is one history, whatever the settings. -/
theorem Script.bare_history
    (settings : Settings)
    (script : Script) :
    (script.history settings).bare = script.history .blank := by
  rw [history, ← Layout.history_bare, Layout.bare_run, Layout.bare_start, ← history]

/-! Layouts without labels. -/

theorem CommitNode.unlabelled_unlabelled (commit : CommitNode) :
    commit.unlabelled.unlabelled = commit.unlabelled := by
  cases isMerge : commit.isMerge <;> simp [unlabelled, isMerge]

namespace Layout

/-- A layout without the labels of its commits. -/
def unlabelled (layout : Layout) : Layout :=
  { layout with commits := layout.commits.map CommitNode.unlabelled }

theorem unlabelled_unlabelled (layout : Layout) :
    layout.unlabelled.unlabelled = layout.unlabelled := by
  simp only [unlabelled, List.map_map, Function.comp_def, CommitNode.unlabelled_unlabelled]

/-- Commits that differ in their labels are appended alike. -/
theorem unlabelled_append
    (layout : Layout)
    {node other : CommitNode}
    (alike : node.unlabelled = other.unlabelled)
    (incoming : List Edge) :
    (layout.append node incoming).unlabelled =
      (layout.unlabelled.append other incoming).unlabelled := by
  have sameId : node.unlabelled.id = other.unlabelled.id := congrArg CommitNode.id alike
  have sameTable : layout.table.advance node.id = layout.table.advance other.id :=
    congrArg layout.table.advance sameId
  simp only [append, unlabelled, List.map_append, List.map_map, List.map_singleton,
    Function.comp_def, CommitNode.unlabelled_unlabelled, alike, sameTable]

/-- A branch declaration does the same to a layout without labels. -/
theorem branch_unlabelled
    (settings : Settings)
    (layout : Layout)
    (name : String) :
    layout.unlabelled.branch settings name = (layout.branch settings name).unlabelled := by
  simp only [branch, unlabelled]
  cases layout.table.switch? name <;> rfl

theorem checkout_unlabelled
    (layout : Layout)
    (name : String) :
    layout.unlabelled.checkout name = (layout.checkout name).unlabelled := by
  simp only [checkout, unlabelled]
  cases layout.table.switch? name <;> rfl

/-- No directive looks at a label, and the tag of a commit ends in its label. -/
theorem unlabelled_apply
    (settings : Settings)
    (layout : Layout)
    (directive : Directive) :
    (layout.apply settings directive).unlabelled =
      (layout.unlabelled.apply settings directive.untagged).unlabelled := by
  cases directive with
  | commit index id tag =>
      exact layout.unlabelled_append (by rfl) _
  | branch index name =>
      simp only [apply, Directive.untagged, branch_unlabelled, unlabelled_unlabelled]
  | checkout index name =>
      simp only [apply, Directive.untagged, checkout_unlabelled, unlabelled_unlabelled]
  | merge index name =>
      exact layout.unlabelled_append rfl _
  | unrecognized index text =>
      exact layout.unlabelled_unlabelled.symm

/-- Directives that differ in their tags lead from alike layouts to alike ones. -/
theorem unlabelled_run
    (settings : Settings)
    {layout other : Layout}
    {first second : List Directive}
    (alike : layout.unlabelled = other.unlabelled)
    (sameButTags : first.map Directive.untagged = second.map Directive.untagged) :
    (layout.run settings first).unlabelled = (other.run settings second).unlabelled := by
  induction first generalizing layout other second with
  | nil =>
      obtain rfl := List.map_eq_nil_iff.mp sameButTags.symm
      exact alike
  | cons directive rest inductionHypothesis =>
      obtain ⟨counterpart, others, rfl, sameDirective, sameRest⟩ :=
        List.map_eq_cons_iff.mp sameButTags.symm
      have step :
          (layout.apply settings directive).unlabelled =
            (other.apply settings counterpart).unlabelled := by
        rw [unlabelled_apply, unlabelled_apply settings other, alike, sameDirective]
      have continued := inductionHypothesis step sameRest.symm
      exact continued

end Layout

/-- Behind labels there is one history, whatever the tags. -/
theorem Script.unlabelled_history
    (settings : Settings)
    {first second : List Directive}
    (sameButTags : first.map Directive.untagged = second.map Directive.untagged) :
    (Script.history settings ⟨first⟩).unlabelled =
      (Script.history settings ⟨second⟩).unlabelled :=
  congrArg Layout.history (Layout.unlabelled_run settings rfl sameButTags)

namespace History

/-- The graph of a stripped history is the stripped graph. -/
theorem graph_bare (history : History) :
    history.bare.graph = history.graph.bare := by
  simp only [graph, bare, Graph.bare, List.map_map, List.flatMap_map]
  rfl

/-- Labels have no part in the graph of a history. -/
theorem graph_unlabelled (history : History) :
    history.unlabelled.graph = history.graph := by
  simp only [graph, unlabelled, List.map_map]
  rfl

end History

namespace Script

/--
Presentation never influences topology.

Laid out with whatever distances and colors, a script has one history behind its
places and colors; and scripts that differ in the tags of their commits have one
behind the labels of those commits. So whatever a graph is asked for, the number
of nodes or edges, the neighbours or ancestors of a node, or a topological order,
the answer depends on neither.
-/
theorem presentation_never_influences_topology
    {first second : List Directive}
    (sameButTags : first.map Directive.untagged = second.map Directive.untagged)
    (settings other : Settings) :
    (Script.history settings ⟨first⟩).bare = (Script.history other ⟨first⟩).bare ∧
      (Script.history settings ⟨first⟩).unlabelled =
          (Script.history settings ⟨second⟩).unlabelled ∧
        let graph := (Script.history settings ⟨first⟩).graph
        let restyled := (Script.history other ⟨second⟩).graph
        graph.nodeCount = restyled.nodeCount ∧
          graph.edgeCount = restyled.edgeCount ∧
          (∀ id : String,
            graph.parents id = restyled.parents id ∧
              graph.children id = restyled.children id ∧
              graph.ancestors id = restyled.ancestors id) ∧
          graph.topologicalOrder? = restyled.topologicalOrder? := by
  have sameLooks (script : Script) :
      (script.history settings).bare = (script.history other).bare :=
    (bare_history settings script).trans (bare_history other script).symm
  have sameButLabels := unlabelled_history settings sameButTags
  refine ⟨sameLooks ⟨first⟩, sameButLabels, ?topology⟩
  intro graph restyled
  have retagged : graph = (Script.history settings ⟨second⟩).graph := by
    rw [← History.graph_unlabelled, ← sameButLabels, History.graph_unlabelled]
  have sameShape : graph.bare = restyled.bare := by
    rw [retagged, ← History.graph_bare, sameLooks, History.graph_bare]
  refine ⟨?nodes, ?edges, fun id => ⟨?parents, ?children, ?ancestors⟩, ?order⟩
  case nodes =>
    simpa using congrArg Graph.nodeCount sameShape
  case edges =>
    simpa using congrArg Graph.edgeCount sameShape
  case parents =>
    simpa using congrArg (Graph.parents · id) sameShape
  case children =>
    simpa using congrArg (Graph.children · id) sameShape
  case ancestors =>
    rw [← Graph.ancestors_bare, sameShape, Graph.ancestors_bare]
  case order =>
    rw [← Graph.topologicalOrder?_bare, sameShape, Graph.topologicalOrder?_bare]

/-- A branch that is merged back, with a tag on its commit or without one. -/
def mergeBack (tag : Option String) : List Directive :=
  [.commit 0 none none, .branch 1 "dev", .commit 2 (some "work") tag, .checkout 3 "main",
    .merge 4 "dev"]

/-- Settings that differ from the usual ones in everything. -/
def gaudySettings : Settings where
  spacingX := .int (-7)
  spacingY := .int 0
  palette := ⟨["red", "green"], List.cons_ne_nil _ _⟩

theorem presentation_never_influences_a_merge :
    (mergeBack (some "v1")).map Directive.untagged = (mergeBack none).map Directive.untagged ∧
      (history {} ⟨mergeBack (some "v1")⟩).bare =
          (history gaudySettings ⟨mergeBack (some "v1")⟩).bare ∧
        (history {} ⟨mergeBack (some "v1")⟩).unlabelled =
            (history {} ⟨mergeBack none⟩).unlabelled ∧
          (history {} ⟨mergeBack (some "v1")⟩).graph.parents "merge-4" =
              (history gaudySettings ⟨mergeBack none⟩).graph.parents "merge-4" ∧
            (history {} ⟨mergeBack (some "v1")⟩).graph.topologicalOrder? =
              (history gaudySettings ⟨mergeBack none⟩).graph.topologicalOrder? := by
  have sameButTags :
      (mergeBack (some "v1")).map Directive.untagged = (mergeBack none).map Directive.untagged :=
    rfl
  obtain ⟨sameLooks, sameButLabels, -, -, neighbours, sameOrder⟩ :=
    presentation_never_influences_topology sameButTags {} gaudySettings
  exact ⟨sameButTags, sameLooks, sameButLabels, (neighbours "merge-4").1, sameOrder⟩

end Script

end GitLanes
