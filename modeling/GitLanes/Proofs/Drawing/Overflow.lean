import GitLanes.Proofs.Drawing.Geometry
import GitLanes.Proofs.Layout.Commits
import GitLanes.Proofs.Layout.Lanes
import GitLanes.Proofs.Text.Lines
import GitLanes.Script.Source

namespace GitLanes

/-!
# Drawings without overflow

With the standard settings every coordinate is a small multiple of a position in
a list of directives. It comes near the largest double only if there are more
directives than any file can hold, so what a source lays out can be drawn.
-/

/-- Every directive makes one branch at most. -/
theorem Layout.length_names_replay_le
    (settings : Settings)
    (directives : List Directive) :
    (Layout.replay settings directives).table.names.length ≤ directives.length + 1 := by
  have distinct := (Layout.consistent_replay settings directives).distinctNames
  have declared :
      (Layout.replay settings directives).table.names ⊆
        mainBranch :: directives.filterMap Directive.declared? := by
    intro name member
    rw [Layout.names_replay, declaredNames] at member
    exact List.mem_eraseDups.mp member
  calc (Layout.replay settings directives).table.names.length
    _ ≤ (mainBranch :: directives.filterMap Directive.declared?).length :=
        (distinct.subperm declared).length_le
    _ ≤ directives.length + 1 :=
        Nat.succ_le_succ (List.length_filterMap_le _ _)

namespace Script

/-- Lanes are counted by the directives that declare branches. -/
theorem laneIndex_le
    {settings : Settings}
    {script : Script}
    {branch : Branch}
    (member : branch ∈ (script.history settings).branches) :
    0 ≤ branch.laneIndex ∧ branch.laneIndex ≤ script.directives.length := by
  obtain ⟨position, inRange, found⟩ := List.getElem_of_mem member
  have lane :=
    ((Layout.numbered_replay settings script.directives).lane_and_color
      (List.getElem?_eq_some_iff.mpr ⟨inRange, found⟩)).1
  have bounded := Layout.length_names_replay_le settings script.directives
  rw [BranchTable.names, List.length_map] at bounded
  have atMost : position < script.directives.length + 1 := Nat.lt_of_lt_of_le inRange bounded
  omega

/-- Every directive makes one commit at most. -/
theorem length_commits_le
    (settings : Settings)
    (script : Script) :
    (script.history settings).commits.length ≤ script.directives.length := by
  rw [← List.length_map, map_caption_commits]
  exact List.length_filterMap_le _ _

/-- A script that is not longer than any file is drawn with the standard settings. -/
theorem exists_render
    {script : Script}
    (short : script.directives.length < powerOfTwo 1000)
    (now : String) :
    ∃ document, (script.history {}).render {} ({} : Settings).spacingY now = .ok document := by
  have range : powerOfTwo 1000 * 150 < Double.roundingLimit := by
    have factor : powerOfTwo 24 = 16777216 := rfl
    have larger : powerOfTwo 1024 = powerOfTwo 1000 * 16777216 := by
      rw [← factor, ← powerOfTwo_add]
    have below : powerOfTwo 970 ≤ powerOfTwo 1000 := powerOfTwo_le_powerOfTwo (by decide)
    have positive := powerOfTwo_pos 1000
    rw [Double.roundingLimit]
    omega
  have overflowsIff :=
    (script.history {}).render_overflowsIff (rfl : ({} : Rendering).nodeSize = .int 50) 100 now
  refine overflowsIff.succeeds ?_
  rintro (⟨branch, member, large⟩ | ⟨commit, member, large⟩)
  · have bounded := laneIndex_le member
    omega
  · obtain ⟨position, inRange, found⟩ := List.getElem_of_mem member
    have listed := List.getElem?_eq_some_iff.mpr ⟨inRange, found⟩
    obtain ⟨branch, isOwner, onLane, -⟩ := exists_branch_of_commit listed
    have bounded := laneIndex_le (List.mem_of_find?_eq_some isOwner)
    have atMost := length_commits_le {} script
    have atX : commit.x = .int (position * 150) := x_of_commit listed
    have atY : commit.y = .int (branch.laneIndex * 100) := onLane
    rw [atX, atY] at large
    simp only [Quantity.int_isTooLarge_iff] at large
    omega

/-- Every line of a source says one directive at most. -/
theorem length_ofLines_le (source : List Char) :
    (ofLines source).directives.length ≤ source.length + 1 := by
  rw [ofLines, List.length_mapIdx]
  calc (significantLines source).length
    _ ≤ ((linesOf source).map trim).length := List.length_filter_le _ _
    _ ≤ source.length + 1 := by
        rw [List.length_map]
        exact length_linesOf_le source

end Script

end GitLanes
