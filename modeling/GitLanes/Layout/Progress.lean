import GitLanes.Layout.Settings
import GitLanes.Layout.Table
import GitLanes.Script.Directive
import GitLanes.Number.Numeral

namespace GitLanes

/-!
# Laying out a script

Directives are replayed in order. Every commit and every merge takes the next
column, whatever its branch, and the lane of the current branch; lanes and
colors are settled when a branch is created. References to unknown branches are
never an error: switching to one changes nothing, and merging one makes a merge
without a merge line.
-/

/-- The branch that every layout starts on. -/
def mainBranch : String := "main"

/-- The label of every merge. -/
def mergeLabel : String := "Merge"

/-- The identifier of a commit that was given none. -/
def commitId (index : Int) : String :=
  "c" ++ integerText index

/-- The identifier of a merge. -/
def mergeId (index : Int) : String :=
  "merge-" ++ integerText index

/-- A text that was given and is not empty. -/
def given? (text : Option String) : Option String :=
  text.filter fun text => text != ""

/-- A layout under way: what was created so far and the next free places. -/
structure Layout where
  table : BranchTable
  nextLane : Nat
  step : Nat
  commits : List CommitNode
  edges : List Edge
  deriving Repr, DecidableEq

namespace Layout

/-- The layout before its first directive. -/
def start (settings : Settings) : Layout where
  table := .single {
    name := mainBranch
    laneIndex := 0
    color := settings.palette.color 0
    tip := none
  }
  nextLane := 1
  step := 0
  commits := []
  edges := []

/-- The branches of a layout in order of creation. -/
def branches (layout : Layout) : List Branch :=
  layout.table.toList

/-- The branch on which the next commit is made. -/
def current (layout : Layout) : Branch :=
  layout.table.current

/-- The history laid out so far. -/
def history (layout : Layout) : History where
  branches := layout.branches
  commits := layout.commits
  edges := layout.edges

/-- The place and the looks of the next commit on the current branch. -/
def nextNode
    (settings : Settings)
    (layout : Layout)
    (id label : String)
    (isMerge : Bool) :
    CommitNode where
  id := id
  label := label
  x := settings.spacingX.times layout.step
  y := settings.spacingY.times layout.current.laneIndex
  branch := layout.current.name
  color := layout.current.color
  isMerge := isMerge

/-- The line from the last commit of a branch, if it has one, to a new commit. -/
def edgeFrom (branch : Branch) (target : String) (isMergeLine : Bool) : List Edge :=
  match branch.tip with
  | none => []
  | some source => [⟨source, target, branch.color, isMergeLine⟩]

/-- A layout with one more commit on the current branch. -/
def append (layout : Layout) (node : CommitNode) (incoming : List Edge) : Layout where
  table := layout.table.advance node.id
  nextLane := layout.nextLane
  step := layout.step + 1
  commits := layout.commits ++ [node]
  edges := layout.edges ++ incoming

/-- Make a commit, named by its own identifier or by its index. -/
def commit
    (settings : Settings)
    (layout : Layout)
    (index : Int)
    (id tag : Option String) :
    Layout :=
  let id := (given? id).getD (commitId index)
  layout.append
    (layout.nextNode settings id ((given? tag).getD id) false)
    (edgeFrom layout.current id false)

/--
Make a branch current, creating it if need be.

A new branch starts at the last commit of the branch it was created on. Its
color is the one after its lane, so that the first one created skips a color.
-/
def branch (settings : Settings) (layout : Layout) (name : String) : Layout :=
  match layout.table.switch? name with
  | some table => { layout with table }
  | none =>
      { layout with
        nextLane := layout.nextLane + 1
        table := layout.table.create {
          name
          laneIndex := layout.nextLane
          color := settings.palette.color (layout.nextLane + 1)
          tip := layout.current.tip
        } }

/-- Make a known branch current. -/
def checkout (layout : Layout) (name : String) : Layout :=
  match layout.table.switch? name with
  | some table => { layout with table }
  | none => layout

/-- Make a merge, with a merge line from the last commit of a known branch. -/
def merge (settings : Settings) (layout : Layout) (index : Int) (name : String) : Layout :=
  let id := mergeId index
  let mergeLine :=
    match layout.table.find? name with
    | none => []
    | some source => edgeFrom source id true
  layout.append
    (layout.nextNode settings id mergeLabel true)
    (edgeFrom layout.current id false ++ mergeLine)

/-- Carry out one directive. -/
def apply (settings : Settings) (layout : Layout) : Directive → Layout
  | .commit index id tag => layout.commit settings index id tag
  | .branch _ name => layout.branch settings name
  | .checkout _ name => layout.checkout name
  | .merge index name => layout.merge settings index name
  | .unrecognized _ _ => layout

/-- Carry out a list of directives. -/
def run (settings : Settings) (layout : Layout) (directives : List Directive) : Layout :=
  directives.foldl (apply settings) layout

end Layout

/-- The history that a script lays out. -/
def Script.history (settings : Settings) (script : Script) : History :=
  ((Layout.start settings).run settings script.directives).history

end GitLanes
