import GitLanes.Layout.Table
import Mathlib.Data.List.Nodup
import Mathlib.Data.List.TakeWhile

namespace GitLanes.BranchTable

/-!
# Looking branches up

As long as no two branches of a table share a name, a table is fully described
by the branches it lists and by the one that is current. What each operation
does to these two is said here once.
-/

/-- The names of the branches in order of creation. -/
def names (table : BranchTable) : List String :=
  table.toList.map Branch.name

/-- The current branch is a branch of the table. -/
theorem current_mem_toList (table : BranchTable) :
    table.current ∈ table.toList := by
  simp [toList]

theorem current_name_mem_names (table : BranchTable) :
    table.current.name ∈ table.names :=
  List.mem_map_of_mem table.current_mem_toList

theorem mem_names_iff
    {table : BranchTable}
    {name : String} :
    name ∈ table.names ↔ ∃ branch ∈ table.toList, branch.name = name :=
  List.mem_map

/-- Branches of one name are one branch. -/
theorem eq_of_name_eq
    {table : BranchTable}
    (distinct : table.names.Nodup)
    {first second : Branch}
    (firstMember : first ∈ table.toList)
    (secondMember : second ∈ table.toList)
    (sameName : first.name = second.name) :
    first = second :=
  List.inj_on_of_nodup_map distinct firstMember secondMember sameName

/-- A branch that is found is in the table, under the name that was asked for. -/
theorem mem_of_find?
    {table : BranchTable}
    {name : String}
    {branch : Branch}
    (found : table.find? name = some branch) :
    branch ∈ table.toList ∧ branch.name = name := by
  have hasName := List.find?_some found
  exact ⟨List.mem_of_find?_eq_some found, by simpa using hasName⟩

theorem find?_eq_none_iff
    {table : BranchTable}
    {name : String} :
    table.find? name = none ↔ name ∉ table.names := by
  simp [find?, names]

/-- Looking a name up finds the listed branch of that name. -/
theorem find?_eq_some_iff
    {table : BranchTable}
    (distinct : table.names.Nodup)
    {name : String}
    {branch : Branch} :
    table.find? name = some branch ↔ branch ∈ table.toList ∧ branch.name = name := by
  constructor
  · exact mem_of_find?
  · rintro ⟨member, hasName⟩
    cases lookup : table.find? name with
    | none =>
        have unknown := find?_eq_none_iff.mp lookup
        exact (unknown (mem_names_iff.mpr ⟨branch, member, hasName⟩)).elim
    | some other =>
        have found := mem_of_find? lookup
        rw [eq_of_name_eq distinct found.1 member (found.2.trans hasName.symm)]

/-- Switching to a name makes the branch current that looking it up finds. -/
theorem map_current_switch?
    (table : BranchTable)
    (name : String) :
    (table.switch? name).map BranchTable.current = table.find? name := by
  rw [find?, List.find?_eq_head?_dropWhile_not, switch?]
  change _ = (table.toList.dropWhile fun branch => branch.name != name).head?
  split
  · rename_i nothing
    rw [nothing]
    rfl
  · rename_i current after shape
    rw [shape]
    rfl

/-- A switch fails exactly for the names that are not in the table. -/
theorem switch?_eq_none_iff
    {table : BranchTable}
    {name : String} :
    table.switch? name = none ↔ name ∉ table.names := by
  rw [← find?_eq_none_iff, ← map_current_switch?, Option.map_eq_none_iff]

/-- After a switch the branch that was asked for is current. -/
theorem current_name_of_switch?
    {table switched : BranchTable}
    {name : String}
    (found : table.switch? name = some switched) :
    switched.current.name = name := by
  have lookup := table.map_current_switch? name
  rw [found] at lookup
  exact (mem_of_find? lookup.symm).2

/-- A switch leaves the names of the table and their order as they are. -/
theorem names_of_switch?
    {table switched : BranchTable}
    {name : String}
    (found : table.switch? name = some switched) :
    switched.names = table.names := by
  rw [names, toList_of_switch? found, names]

/-- Only the name of a branch can be switched to. -/
theorem mem_names_of_switch?
    {table switched : BranchTable}
    {name : String}
    (found : table.switch? name = some switched) :
    name ∈ table.names := by
  rw [← names_of_switch? found, ← current_name_of_switch? found]
  exact switched.current_name_mem_names

@[simp] theorem names_create
    (table : BranchTable)
    (branch : Branch) :
    (table.create branch).names = table.names ++ [branch.name] := by
  simp [names]

@[simp] theorem names_advance
    (table : BranchTable)
    (id : String) :
    (table.advance id).names = table.names := by
  simp [names, toList, advance]

/-- No other branch has the name of the current one. -/
theorem name_ne_current_name
    {table : BranchTable}
    (distinct : table.names.Nodup)
    {other : Branch}
    (member : other ∈ table.before ++ table.after) :
    other.name ≠ table.current.name := by
  intro sameName
  have shape : table.names.Perm
      (table.current.name :: (table.before ++ table.after).map Branch.name) := by
    simp [names, toList]
  exact (List.nodup_cons.mp (shape.nodup_iff.mp distinct)).1
    (sameName ▸ List.mem_map_of_mem member)

/-- Advancing replaces the branch that has the name of the current one. -/
theorem toList_advance_eq_map
    {table : BranchTable}
    (distinct : table.names.Nodup)
    (id : String) :
    (table.advance id).toList =
      table.toList.map fun branch =>
        if branch.name = table.current.name then { branch with tip := some id } else branch := by
  have kept :
      ∀ others, others ⊆ table.before ++ table.after →
        (others.map fun branch =>
          if branch.name = table.current.name then { branch with tip := some id } else branch) =
            others := by
    intro others subset
    refine (List.map_congr_left fun other member => ?_).trans (List.map_id others)
    exact if_neg (name_ne_current_name distinct (subset member))
  rw [toList_advance, toList, List.map_append, List.map_cons, if_pos rfl,
    kept _ (List.subset_append_left _ _), kept _ (List.subset_append_right _ _)]

/-- Advancing replaces the current branch and keeps the branches of every other name. -/
theorem mem_toList_advance_iff
    {table : BranchTable}
    (distinct : table.names.Nodup)
    {id : String}
    {branch : Branch} :
    branch ∈ (table.advance id).toList ↔
      branch = { table.current with tip := some id } ∨
        branch ∈ table.toList ∧ branch.name ≠ table.current.name := by
  have apart :
      ∀ other ∈ table.before ++ table.after, other.name ≠ table.current.name :=
    fun _ => name_ne_current_name distinct
  simp only [toList_advance, List.mem_append, List.mem_cons] at apart ⊢
  rw [toList, List.mem_append, List.mem_cons]
  constructor
  · intro advanced
    rcases advanced with inBefore | rfl | inAfter
    · exact Or.inr ⟨Or.inl inBefore, apart branch (Or.inl inBefore)⟩
    · exact Or.inl rfl
    · exact Or.inr ⟨Or.inr (Or.inr inAfter), apart branch (Or.inr inAfter)⟩
  · intro replacedOrKept
    rcases replacedOrKept with rfl | ⟨inBefore | rfl | inAfter, otherName⟩
    · exact Or.inr (Or.inl rfl)
    · exact Or.inl inBefore
    · exact (otherName rfl).elim
    · exact Or.inr (Or.inr inAfter)

end GitLanes.BranchTable
