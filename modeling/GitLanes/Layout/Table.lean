import GitLanes.History

namespace GitLanes

/-!
# The table of branches

A layout always has a current branch, so the table keeps it apart from the
branches created before and after it. Creating a branch puts it at the end and
makes it current; nothing ever changes the order of creation.
-/

/-- The branches in order of creation, one of which is current. -/
structure BranchTable where
  before : List Branch
  current : Branch
  after : List Branch
  deriving Repr, DecidableEq

namespace BranchTable

/-- A table with a single branch. -/
def single (branch : Branch) : BranchTable where
  before := []
  current := branch
  after := []

/-- The branches in order of creation. -/
def toList (table : BranchTable) : List Branch :=
  table.before ++ table.current :: table.after

/-- The branch of a given name. -/
def find? (table : BranchTable) (name : String) : Option Branch :=
  table.toList.find? fun branch => branch.name == name

/-- The table with the branch of a given name as the current one. -/
def switch? (table : BranchTable) (name : String) : Option BranchTable :=
  match table.toList.dropWhile fun branch => branch.name != name with
  | [] => none
  | current :: after =>
      some ⟨table.toList.takeWhile fun branch => branch.name != name, current, after⟩

/-- The table with a new branch at its end, which becomes current. -/
def create (table : BranchTable) (branch : Branch) : BranchTable where
  before := table.toList
  current := branch
  after := []

/-- The table with a new last commit on the current branch. -/
def advance (table : BranchTable) (id : String) : BranchTable :=
  { table with current := { table.current with tip := some id } }

/-- A single branch is all that its table lists. -/
@[simp] theorem toList_single (branch : Branch) :
    (single branch).toList = [branch] :=
  rfl

/-- A new branch is listed last. -/
@[simp] theorem toList_create
    (table : BranchTable)
    (branch : Branch) :
    (table.create branch).toList = table.toList ++ [branch] :=
  rfl

/-- Advancing the current branch changes nothing but its last commit. -/
@[simp] theorem toList_advance
    (table : BranchTable)
    (id : String) :
    (table.advance id).toList =
      table.before ++ { table.current with tip := some id } :: table.after :=
  rfl

/-- Switching to another branch keeps the order of creation. -/
theorem toList_of_switch?
    {table switched : BranchTable}
    {name : String}
    (found : table.switch? name = some switched) :
    switched.toList = table.toList := by
  unfold switch? at found
  split at found
  · simp at found
  · rename_i current after shape
    rw [← Option.some.inj found, toList, ← shape]
    exact List.takeWhile_append_dropWhile

end BranchTable

end GitLanes
