import GitLanes.Layout.Progress
import GitLanes.Text.Quoted

namespace GitLanes

/-!
# Notices of a layout

A layout never fails on a directive, but it tells what it made of those that
name a branch or say nothing. Names and texts are quoted, so that nothing in a
source can break a notice into two lines.
-/

/-- What a layout has to tell about a directive. -/
inductive Notice
  | ignored (index : Int) (text : String)
  | created (name : String) (lane : Nat)
  | revisited (name : String)
  | unknownCheckout (index : Int) (name : String)
  | nothingToMerge (index : Int) (name : String)
  deriving Repr, DecidableEq

namespace Layout

/-- What there is to tell about a directive in the layout that meets it. -/
def notice? (layout : Layout) : Directive → Option Notice
  | .commit _ _ _ => none
  | .branch _ name =>
      if (layout.table.find? name).isSome then
        some (.revisited name)
      else
        some (.created name layout.nextLane)
  | .checkout index name =>
      if (layout.table.find? name).isSome then none else some (.unknownCheckout index name)
  | .merge index name =>
      if ((layout.table.find? name).bind Branch.tip).isSome then
        none
      else
        some (.nothingToMerge index name)
  | .unrecognized index text => some (.ignored index text)

/-- What there is to tell about a list of directives. -/
def notices (settings : Settings) (layout : Layout) : List Directive → List Notice
  | [] => []
  | directive :: rest =>
      (layout.notice? directive).toList ++ (layout.apply settings directive).notices settings rest

end Layout

namespace Notice

/-- The wording of a notice. -/
def message : Notice → String
  | .ignored index text =>
      "line " ++ integerText index ++ " ignored: " ++ quotedText text.toList
  | .created name lane =>
      "branch " ++ quotedText name.toList ++ " created on lane " ++ integerText lane
  | .revisited name =>
      "branch " ++ quotedText name.toList ++ " already exists; switching to it"
  | .unknownCheckout index name =>
      "line " ++ integerText index ++ ": checkout of unknown branch " ++ quotedText name.toList ++
        " ignored"
  | .nothingToMerge index name =>
      "line " ++ integerText index ++ ": nothing to merge from " ++ quotedText name.toList

end Notice

end GitLanes
