import GitLanes.Proofs.Layout.Timeline
import GitLanes.Proofs.Layout.Topology

namespace GitLanes

/-!
# Commits in closed form

What the commits of a script are can be told from its directives alone, without
replaying them: every commit and every merge draws one node, which lies on the
branch that was switched to last. The place and the color of a node are those
that its branch still has when the script ends.
-/

/-- What a node says of itself: its identifier, its label and whether it is a merge. -/
structure Caption where
  id : String
  label : String
  isMerge : Bool
  deriving Repr, DecidableEq

/-- The caption of a node. -/
def CommitNode.caption (node : CommitNode) : Caption where
  id := node.id
  label := node.label
  isMerge := node.isMerge

namespace Directive

/-- A text that may be missing, an empty one counting as missing. -/
def textOr (fallback : String) : Option String → String
  | none => fallback
  | some text => if text = "" then fallback else text

/-- The caption of the node that a directive draws, if it draws one. -/
def caption? : Directive → Option Caption
  | .commit index id tag =>
      let id := textOr ("c" ++ integerText index) id
      some ⟨id, textOr id tag, false⟩
  | .merge index _ =>
      some ⟨"merge-" ++ integerText index, "Merge", true⟩
  | _ => none

/-- The branch that a directive switches to, when some directives came before it. -/
def switchesTo? (earlier : List Directive) : Directive → Option String
  | .branch _ name => some name
  | .checkout _ name =>
      if name = "main" ∨ ∃ directive ∈ earlier, directive.declared? = some name then
        some name
      else
        none
  | _ => none

/-- A text that is absent or empty gives way to its fallback. -/
theorem textOr_eq_getD
    (fallback : String)
    (text : Option String) :
    textOr fallback text = (given? text).getD fallback := by
  cases text with
  | none =>
      rfl
  | some text =>
      by_cases empty : text = "" <;> simp [textOr, given?, Option.filter, empty]

end Directive

/-- The branches that are switched to by directives that come after others. -/
def switchedTo (earlier : List Directive) : List Directive → List String
  | [] => []
  | directive :: rest =>
      (directive.switchesTo? earlier).toList ++ switchedTo (earlier ++ [directive]) rest

/-- The branch that was switched to last, or the main one if none was. -/
def currentName (directives : List Directive) : String :=
  (switchedTo [] directives).getLastD "main"

theorem switchedTo_append
    (earlier first second : List Directive) :
    switchedTo earlier (first ++ second) =
      switchedTo earlier first ++ switchedTo (earlier ++ first) second := by
  induction first generalizing earlier with
  | nil =>
      simp [switchedTo]
  | cons directive rest inductionHypothesis =>
      simp [switchedTo, inductionHypothesis]

/-- The last directive decides which branch is current, if it switches to one. -/
theorem currentName_concat
    (directives : List Directive)
    (directive : Directive) :
    currentName (directives ++ [directive]) =
      (directive.switchesTo? directives).getD (currentName directives) := by
  rw [currentName, switchedTo_append, List.nil_append]
  cases switched : directive.switchesTo? directives with
  | none =>
      simp [switchedTo, switched, currentName]
  | some name =>
      simp [switchedTo, switched]

namespace Layout

/-- What is drawn bears the caption of the directive that draws it. -/
theorem map_caption_drawn?
    (settings : Settings)
    (layout : Layout)
    (directive : Directive) :
    (layout.drawn? settings directive).map (fun drawn => drawn.node.caption) =
      directive.caption? := by
  cases directive with
  | commit index id tag =>
      simp [drawn?, Directive.caption?, nextNode, CommitNode.caption, Directive.textOr_eq_getD,
        commitId]
  | merge index name =>
      simp [drawn?, Directive.caption?, nextNode, CommitNode.caption, mergeId, mergeLabel]
  | _ =>
      rfl

theorem map_caption_drawing
    (settings : Settings)
    (layout : Layout)
    (directives : List Directive) :
    (layout.drawing settings directives).map (fun drawn => drawn.node.caption) =
      directives.filterMap Directive.caption? := by
  induction directives generalizing layout with
  | nil =>
      rfl
  | cons directive rest inductionHypothesis =>
      rw [drawing, List.map_append, inductionHypothesis, List.filterMap_cons,
        ← map_caption_drawn? settings layout]
      cases layout.drawn? settings directive <;> rfl

/-- A directive that draws something does not switch to a branch. -/
theorem switchesTo?_eq_none_of_drawn?
    {settings : Settings}
    {layout : Layout}
    {directive : Directive}
    {drawn : Drawn}
    (drawnBy : layout.drawn? settings directive = some drawn)
    (earlier : List Directive) :
    directive.switchesTo? earlier = none := by
  cases directive with
  | commit index id tag =>
      rfl
  | merge index name =>
      rfl
  | _ =>
      simp [drawn?] at drawnBy

/-- A directive switches to the branch it asks for, if that branch is known or declared by it. -/
theorem switchesTo?_eq_asked?
    {settings : Settings}
    {directives : List Directive}
    {directive : Directive}
    {name : String}
    (asked : directive.asked? = some name)
    (known : name ∈ (replay settings directives).table.names) :
    directive.switchesTo? directives = some name := by
  cases directive with
  | branch index declared =>
      exact asked
  | checkout index target =>
      cases asked
      exact if_pos (mem_names_replay_iff.mp known)
  | _ =>
      cases asked

/-- Asking for a branch that is not known and not declared is no switch. -/
theorem switchesTo?_eq_none_of_unknown
    {settings : Settings}
    {directives : List Directive}
    {directive : Directive}
    (undeclared : directive.declared? = none)
    (unknown : ∀ name ∈ directive.asked?, name ∉ (replay settings directives).table.names) :
    directive.switchesTo? directives = none := by
  cases directive with
  | branch index name =>
      cases undeclared
  | checkout index name =>
      exact if_neg fun known => unknown name rfl (mem_names_replay_iff.mpr known)
  | _ =>
      rfl

/-- The current branch is the one that was switched to last. -/
theorem current_name_replay
    (settings : Settings)
    (directives : List Directive) :
    (replay settings directives).current.name = currentName directives := by
  induction directives using List.reverseRecOn with
  | nil =>
      rfl
  | append_singleton directives directive inductionHypothesis =>
      rw [replay_concat, currentName_concat]
      have moved := move_apply settings (replay settings directives) directive
      generalize (replay settings directives).apply settings directive = next at moved
      cases moved with
      | draw drawnBy =>
          rw [switchesTo?_eq_none_of_drawn? drawnBy]
          exact inductionHypothesis
      | create index name unknown =>
          rfl
      | switch asked found =>
          have known := BranchTable.mem_names_of_switch? found
          rw [switchesTo?_eq_asked? asked known]
          exact BranchTable.current_name_of_switch? found
      | stay undrawn undeclared unknown =>
          rw [switchesTo?_eq_none_of_unknown undeclared unknown]
          exact inductionHypothesis

end Layout

namespace Script

/-- The captions of the commits are those of the directives that have one. -/
theorem map_caption_commits
    (settings : Settings)
    (script : Script) :
    (script.history settings).commits.map CommitNode.caption =
      script.directives.filterMap Directive.caption? := by
  rw [commits_eq_map_drawing, List.map_map]
  exact Layout.map_caption_drawing settings (Layout.start settings) script.directives

/-- A branch is found under its name when a script ends. -/
theorem branch?_eq_some
    {settings : Settings}
    {script : Script}
    {branch : Branch}
    (member : branch ∈ (script.history settings).branches) :
    (script.history settings).branch? branch.name = some branch :=
  (BranchTable.find?_eq_some_iff
    (Layout.consistent_replay settings script.directives).distinctNames).mpr ⟨member, rfl⟩

/-- A node comes from one directive, and lies on the branch that was current before it. -/
theorem exists_directive_of_commit
    {settings : Settings}
    {script : Script}
    {position : Nat}
    {node : CommitNode}
    (found : (script.history settings).commits[position]? = some node) :
    ∃ earlier directive later,
      script.directives = earlier ++ directive :: later ∧
        directive.caption? = some node.caption ∧
        (earlier.filterMap Directive.caption?).length = position ∧
        node.branch = currentName earlier := by
  rw [commits_eq_map_drawing, List.getElem?_map] at found
  obtain ⟨block, listed, rfl⟩ := Option.map_eq_some_iff.mp found
  obtain ⟨earlier, directive, later, shape, drawnBy, -, counted⟩ :=
    exists_directive_of_drawing listed
  obtain ⟨id, label, isMerge, nodeShape⟩ := Layout.node_of_drawn? drawnBy
  refine ⟨earlier, directive, later, shape, ?_, ?_, ?_⟩
  · rw [← Layout.map_caption_drawn? settings (Layout.replay settings earlier), drawnBy]
    rfl
  · have captions := map_caption_commits settings ⟨earlier⟩
    rw [← captions, List.length_map, ← counted]
    rfl
  · rw [nodeShape, ← Layout.current_name_replay settings earlier]
    rfl

/-- A node has the place and the color that its branch has when the script ends. -/
theorem exists_branch_of_commit
    {settings : Settings}
    {script : Script}
    {position : Nat}
    {node : CommitNode}
    (found : (script.history settings).commits[position]? = some node) :
    ∃ branch,
      (script.history settings).branch? node.branch = some branch ∧
        node.y = settings.spacingY.times branch.laneIndex ∧
        node.color = branch.color := by
  rw [commits_eq_map_drawing, List.getElem?_map] at found
  obtain ⟨block, listed, rfl⟩ := Option.map_eq_some_iff.mp found
  obtain ⟨earlier, directive, later, shape, drawnBy, -, -⟩ := exists_directive_of_drawing listed
  obtain ⟨id, label, isMerge, nodeShape⟩ := Layout.node_of_drawn? drawnBy
  obtain ⟨final, finalMember, samePlace⟩ :=
    exists_branch_of_earlier shape (Layout.replay settings earlier).table.current_mem_toList
  simp only [Branch.place, Prod.mk.injEq] at samePlace
  refine ⟨final, ?_, ?_, ?_⟩
  · rw [← branch?_eq_some finalMember, nodeShape, samePlace.1]
    rfl
  · rw [nodeShape, samePlace.2.1]
    rfl
  · rw [nodeShape, samePlace.2.2]
    rfl

/--
The nodes of a script are, one to one and in order, those of its commits and
merges. A node stands at its position times the distance between commits, on the
branch that was switched to last before it, and has the lane and the color that
this branch has when the script ends. So every node stands to the right of all
earlier ones, if the distance between commits is positive.
-/
theorem commits_have_closed_form
    (palette : Palette)
    (spacingX spacingY : Int)
    (script : Script) :
    let history := script.history ⟨.int spacingX, .int spacingY, palette⟩
    history.commits.map CommitNode.caption = script.directives.filterMap Directive.caption? ∧
      (∀ (position : Nat) (node : CommitNode),
        history.commits[position]? = some node →
          node.x = .int (position * spacingX) ∧
            (∃ earlier directive later,
              script.directives = earlier ++ directive :: later ∧
                directive.caption? = some node.caption ∧
                (earlier.filterMap Directive.caption?).length = position ∧
                node.branch = currentName earlier) ∧
            ∃ branch,
              history.branch? node.branch = some branch ∧
                node.y = .int (branch.laneIndex * spacingY) ∧
                node.color = branch.color) ∧
      (0 < spacingX →
        ∀ (first second : Nat) (left right : CommitNode),
          first < second →
            history.commits[first]? = some left →
            history.commits[second]? = some right →
            ∃ leftX rightX : Int,
              left.x = .int leftX ∧ right.x = .int rightX ∧ leftX < rightX) := by
  intro history
  refine ⟨map_caption_commits _ script, ?nodes, ?increasing⟩
  case nodes =>
    intro position node found
    exact ⟨x_of_commit found, exists_directive_of_commit found, exists_branch_of_commit found⟩
  case increasing =>
    intro positive first second left right inFront leftFound rightFound
    refine ⟨first * spacingX, second * spacingX, x_of_commit leftFound,
      x_of_commit rightFound, ?_⟩
    exact Int.mul_lt_mul_of_pos_right (by omega) positive

end Script

end GitLanes
