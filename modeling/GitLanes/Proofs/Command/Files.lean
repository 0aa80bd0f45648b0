import GitLanes.Command.FileSystem
import GitLanes.Proofs.Attempts

namespace GitLanes

/-!
# Files that are written

Writing a file changes what is at one place and nothing else. That place is in a
directory and is no directory itself, so every path leads where it led before,
and the path that was written is now read as what was written to it.
-/

/-- Entries that are kept by their keys are still found, and the others no longer are. -/
theorem lookup_filter_key
    {α β : Type}
    [BEq α]
    [LawfulBEq α]
    (keeps : α → Bool)
    (entries : List (α × β))
    (sought : α) :
    (entries.filter fun entry => keeps entry.1).lookup sought =
      if keeps sought then entries.lookup sought else none := by
  induction entries with
  | nil =>
      simp
  | cons entry rest inductionHypothesis =>
      rcases entry with ⟨key, value⟩
      rw [List.filter_cons]
      by_cases isHead : sought = key
      · subst isHead
        cases kept : keeps sought <;> simp [inductionHypothesis, kept]
      · have notHead := beq_false_of_ne isHead
        cases keeps key <;> simp [List.lookup_cons, notHead, inductionHypothesis]

namespace FileSystem

/-- After writing to a place other than the root, the file is there and all else is as before. -/
theorem entry?_put
    (system : FileSystem)
    {place : Place}
    (notRoot : place ≠ [])
    (contents : List UInt8)
    (other : Place) :
    entry? (system.put place contents) other =
      if other = place then some (.file contents) else system.entry? other := by
  unfold entry?
  by_cases isRoot : other = []
  · rw [if_pos isRoot, if_pos isRoot, if_neg (isRoot ▸ notRoot.symm)]
  · rw [if_neg isRoot, if_neg isRoot, put, List.lookup_append,
      lookup_filter_key (· != place)]
    by_cases same : other = place
    · simp [same]
    · simp [same, List.lookup_cons, beq_false_of_ne same]

/-- The root is a directory, so a place that is none is another one. -/
theorem ne_root_of_not_isDirectory
    {system : FileSystem}
    {place : Place}
    (notDirectory : system.isDirectory place = false) :
    place ≠ [] := by
  rintro rfl
  simp [isDirectory, entry?] at notDirectory

/-- Writing a file makes no directory and removes none. -/
theorem isDirectory_put
    {system : FileSystem}
    {place : Place}
    (notDirectory : system.isDirectory place = false)
    (contents : List UInt8)
    (other : Place) :
    (system.put place contents).isDirectory other = system.isDirectory other := by
  rw [isDirectory, entry?_put system (ne_root_of_not_isDirectory notDirectory)]
  by_cases same : other = place
  · rw [if_pos same, same, notDirectory]
    rfl
  · rw [if_neg same, isDirectory]

/-- Writing a file removes nothing. -/
theorem entry?_put_ne_none
    {system : FileSystem}
    {place other : Place}
    (notDirectory : system.isDirectory place = false)
    (contents : List UInt8)
    (present : system.entry? other ≠ none) :
    entry? (system.put place contents) other ≠ none := by
  rw [entry?_put system (ne_root_of_not_isDirectory notDirectory)]
  split
  · exact Option.some_ne_none _
  · exact present

/-- The place that one name leads to. -/
def enter (system : FileSystem) (place : Place) (name : String) : Except FileFault Place :=
  if !system.isDirectory place then .error .notDirectory
  else if name = "." then .ok place
  else if name = ".." then .ok place.dropLast
  else if isNameTooLong name then .error .nameTooLong
  else if (system.entry? (place ++ [name])).isNone then .error .notFound
  else .ok (place ++ [name])

theorem follow_eq_foldlM
    (system : FileSystem)
    (place : Place)
    (names : List String) :
    system.follow place names = names.foldlM system.enter place := by
  induction names generalizing place with
  | nil =>
      rfl
  | cons name names inductionHypothesis =>
      rw [follow, List.foldlM_cons, enter]
      split_ifs
      all_goals first | rfl | exact inductionHypothesis _

/-- A name can be entered if it leads nowhere else, up, or to an entry that exists. -/
theorem enter_eq_ok_iff
    {system : FileSystem}
    {place next : Place}
    {name : String} :
    system.enter place name = .ok next ↔
      system.isDirectory place = true ∧
        (name = "." ∧ place = next ∨
          name = ".." ∧ place.dropLast = next ∨
            name ≠ "." ∧ name ≠ ".." ∧ isNameTooLong name = false ∧
              system.entry? (place ++ [name]) ≠ none ∧ place ++ [name] = next) := by
  unfold enter
  split_ifs
  all_goals simp_all

/-- What could be entered can still be entered after a file is written. -/
theorem enter_put
    {system : FileSystem}
    {written : Place}
    (notDirectory : system.isDirectory written = false)
    (contents : List UInt8)
    {place next : Place}
    {name : String}
    (leads : system.enter place name = .ok next) :
    (system.put written contents).enter place name = .ok next := by
  rw [enter_eq_ok_iff] at leads ⊢
  obtain ⟨inDirectory, here | above | ⟨notHere, notAbove, short, present, same⟩⟩ := leads
  · exact ⟨isDirectory_put notDirectory contents place ▸ inDirectory, Or.inl here⟩
  · exact ⟨isDirectory_put notDirectory contents place ▸ inDirectory, Or.inr (Or.inl above)⟩
  · exact ⟨isDirectory_put notDirectory contents place ▸ inDirectory,
      Or.inr (Or.inr ⟨notHere, notAbove, short,
        entry?_put_ne_none notDirectory contents present, same⟩)⟩

/-- A path that could be followed leads to the same place after a file is written. -/
theorem follow_put
    {system : FileSystem}
    {written : Place}
    (notDirectory : system.isDirectory written = false)
    (contents : List UInt8)
    {start place : Place}
    {names : List String}
    (leads : system.follow start names = .ok place) :
    (system.put written contents).follow start names = .ok place := by
  rw [follow_eq_foldlM] at leads ⊢
  induction names generalizing start with
  | nil =>
      exact leads
  | cons name names inductionHypothesis =>
      rw [List.foldlM_cons] at leads ⊢
      obtain ⟨next, entered, followed⟩ := bind_eq_ok_iff.mp leads
      exact bind_eq_ok_iff.mpr
        ⟨next, enter_put notDirectory contents entered, inductionHypothesis followed⟩

/-- One more name can be followed from where a path has led to. -/
theorem follow_concat
    {system : FileSystem}
    {start parent place : Place}
    {names : List String}
    {name : String}
    (leads : system.follow start names = .ok parent)
    (entered : system.enter parent name = .ok place) :
    system.follow start (names ++ [name]) = .ok place := by
  rw [follow_eq_foldlM] at leads ⊢
  rw [List.foldlM_append]
  refine bind_eq_ok_iff.mpr ⟨parent, leads, ?_⟩
  rw [List.foldlM_cons]
  exact bind_eq_ok_iff.mpr ⟨place, entered, rfl⟩

/-- A path that can be written leads into a directory and names what is no directory there. -/
theorem of_writablePlace
    {system : FileSystem}
    {path : String}
    {place : Place}
    (writable : system.writablePlace path = .ok place) :
    pathFault? path = none ∧ endsWithSlash path = false ∧ system.isDirectory place = false ∧
      ∃ names name parent,
        pathNames path = names ++ [name] ∧
          system.follow (system.startOf path) names = .ok parent ∧
          system.isDirectory parent = true ∧
          (name ≠ "." ∧ name ≠ ".." ∧ isNameTooLong name = false) ∧
          place = parent ++ [name] := by
  unfold writablePlace at writable
  split at writable
  case h_1 =>
    contradiction
  case h_2 faultless =>
    split at writable
    case h_1 =>
      contradiction
    case h_2 name last =>
      obtain ⟨parent, leads, rest⟩ := bind_eq_ok_iff.mp writable
      split_ifs at rest with noDirectory special tooLong directory
      obtain rfl := Except.ok.inj rest
      simp only [not_or, Bool.not_eq_true] at special tooLong directory noDirectory
      refine ⟨faultless, special.2.2, directory, (pathNames path).dropLast, name, parent, ?_,
        leads, by simpa using noDirectory, ⟨special.1, special.2.1, tooLong⟩, rfl⟩
      exact (List.dropLast_append_getLast? name last).symm

/-- What is written to a path is read from it. -/
theorem read_put
    {system : FileSystem}
    {path : String}
    {place : Place}
    (writable : system.writablePlace path = .ok place)
    (contents : List UInt8) :
    (system.put place contents).read path = .ok contents := by
  obtain ⟨faultless, noSlash, notDirectory, names, name, parent, shape, leads, inDirectory,
    ⟨notHere, notAbove, short⟩, same⟩ := of_writablePlace writable
  have entries := entry?_put system (ne_root_of_not_isDirectory notDirectory) contents place
  rw [if_pos rfl] at entries
  have entered : (system.put place contents).enter parent name = .ok place := by
    rw [enter_eq_ok_iff, isDirectory_put notDirectory, ← same, entries]
    exact ⟨inDirectory, Or.inr (Or.inr ⟨notHere, notAbove, short, Option.some_ne_none _, rfl⟩)⟩
  have arrives :
      (system.put place contents).follow (system.startOf path) (pathNames path) = .ok place :=
    shape ▸ follow_concat (follow_put notDirectory contents leads) entered
  unfold read
  rw [faultless]
  refine bind_eq_ok_iff.mpr ⟨place, arrives, ?_⟩
  rw [entries, noSlash]
  rfl

end FileSystem

end GitLanes
