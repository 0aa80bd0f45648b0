namespace GitLanes

/-!
# Directives

A script is a list of directives, one for each line that says something. Every
directive carries an index, from which the identifiers of unnamed commits and
of merges are derived.
-/

/-- One step of a script. -/
inductive Directive
  | commit (index : Int) (id : Option String) (tag : Option String)
  | branch (index : Int) (name : String)
  | checkout (index : Int) (name : String)
  | merge (index : Int) (name : String)
  | unrecognized (index : Int) (text : String)
  deriving Repr, DecidableEq

namespace Directive

/-- The index of a directive. -/
def index : Directive → Int
  | .commit index _ _ => index
  | .branch index _ => index
  | .checkout index _ => index
  | .merge index _ => index
  | .unrecognized index _ => index

/-- Whether a line was understood as a directive. -/
def isRecognized : Directive → Bool
  | .unrecognized _ _ => false
  | _ => true

end Directive

/-- The directives of one source, in the order of its lines. -/
structure Script where
  directives : List Directive
  deriving Repr, DecidableEq

namespace Script

/-- The number of directives, understood or not. -/
def length (script : Script) : Nat :=
  script.directives.length

/-- The directives that were understood. -/
def recognized (script : Script) : List Directive :=
  script.directives.filter Directive.isRecognized

/-- The number of directives that were not understood. -/
def unrecognizedCount (script : Script) : Nat :=
  script.directives.countP fun directive => !directive.isRecognized

end Script

end GitLanes
