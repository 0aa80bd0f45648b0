import GitLanes.Proofs.Layout.Commits
import GitLanes.Proofs.Number.Numerals
import GitLanes.Proofs.Script.Reading

namespace GitLanes

/-!
# Identifiers of commits

A commit bears the identifier that it quotes, or one that is made from its index,
and a merge bears one that is made from its index. No two made identifiers are
the same, so an identifier can only be repeated by quoting it again or by quoting
one that is made for another commit.
-/

/-- No commit is given the identifier of a merge. -/
theorem commitId_ne_mergeId (first second : Int) :
    commitId first ≠ mergeId second := by
  intro same
  have heads := congrArg (fun id => id.toList.head?) same
  simp [commitId, mergeId] at heads

namespace Directive

/-- The identifier that is made for a commit without one or for a merge. -/
def madeId? : Directive → Option String
  | .commit index none _ => some (commitId index)
  | .merge index _ => some (mergeId index)
  | _ => none

/-- An identifier that is made is made from the index of its directive. -/
theorem eq_of_madeId?
    {directive : Directive}
    {id : String}
    (made : directive.madeId? = some id) :
    id = commitId directive.index ∨ id = mergeId directive.index := by
  cases directive with
  | commit index quoted tag =>
      cases quoted with
      | none =>
          exact Or.inl (Option.some.inj made).symm
      | some quoted =>
          contradiction
  | merge index name =>
      exact Or.inr (Option.some.inj made).symm
  | _ =>
      contradiction

/-- Identifiers that are made for different indices are different. -/
theorem index_eq_of_madeId?
    {first second : Directive}
    {id : String}
    (firstMade : first.madeId? = some id)
    (secondMade : second.madeId? = some id) :
    first.index = second.index := by
  rcases eq_of_madeId? firstMade with firstCommit | firstMerge
  · rcases eq_of_madeId? secondMade with secondCommit | secondMerge
    · exact append_integerText_inj (firstCommit.symm.trans secondCommit)
    · exact absurd (firstCommit.symm.trans secondMerge) (commitId_ne_mergeId _ _)
  · rcases eq_of_madeId? secondMade with secondCommit | secondMerge
    · exact absurd (secondCommit.symm.trans firstMerge) (commitId_ne_mergeId _ _)
    · exact append_integerText_inj (firstMerge.symm.trans secondMerge)

/-- An identifier is quoted or made, but not both. -/
theorem quotedId?_or_madeId?_eq_none (directive : Directive) :
    directive.quotedId? = none ∨ directive.madeId? = none := by
  cases directive with
  | commit index quoted tag =>
      cases quoted with
      | none =>
          exact Or.inl rfl
      | some quoted =>
          exact Or.inr rfl
  | _ =>
      exact Or.inl rfl

/-- A commit bears what it quotes, and else what is made for it. -/
theorem map_id_caption?
    {directive : Directive}
    (solid : ∀ id ∈ directive.quotedId?, id ≠ "") :
    directive.caption?.map Caption.id = directive.quotedId?.or directive.madeId? := by
  cases directive with
  | commit index quoted tag =>
      cases quoted with
      | none =>
          rfl
      | some quoted =>
          exact congrArg some (if_neg (solid quoted rfl))
  | _ =>
      rfl

end Directive

/-- Items of which each is of the first kind, or of the second, or of neither are sorted by kind. -/
theorem perm_filterMap_or
    {α β : Type}
    {first second : α → Option β}
    (items : List α)
    (apart : ∀ item, first item = none ∨ second item = none) :
    (items.filterMap fun item => (first item).or (second item)).Perm
      (items.filterMap first ++ items.filterMap second) := by
  induction items with
  | nil =>
      rfl
  | cons item rest inductionHypothesis =>
      rcases apart item with notFirst | notSecond
      · cases isSecond : second item with
        | none =>
            simpa [List.filterMap_cons, notFirst, isSecond] using inductionHypothesis
        | some value =>
            simp only [List.filterMap_cons, notFirst, isSecond, Option.none_or]
            exact (inductionHypothesis.cons value).trans List.perm_middle.symm
      · cases isFirst : first item with
        | none =>
            simpa [List.filterMap_cons, notSecond, isFirst] using inductionHypothesis
        | some value =>
            simp only [List.filterMap_cons, notSecond, isFirst, Option.some_or]
            exact inductionHypothesis.cons value

namespace Script

/-- Directives with different indices are given different identifiers. -/
theorem nodup_madeIds
    {script : Script}
    (numbered : script.directives.Pairwise fun first second => first.index ≠ second.index) :
    (script.directives.filterMap Directive.madeId?).Nodup := by
  refine List.pairwise_filterMap.mpr (numbered.imp ?_)
  rintro first second apart id firstMade _ secondMade rfl
  exact apart (Directive.index_eq_of_madeId? firstMade secondMade)

/-- The identifiers of the commits are those that are quoted and those that are made. -/
theorem ids_perm
    (settings : Settings)
    {script : Script}
    (solid : ∀ directive ∈ script.directives, ∀ id ∈ directive.quotedId?, id ≠ "") :
    (script.history settings).ids.Perm
      (script.directives.filterMap Directive.quotedId? ++
        script.directives.filterMap Directive.madeId?) := by
  have captions := congrArg (List.map Caption.id) (map_caption_commits settings script)
  rw [List.map_map, List.map_filterMap] at captions
  have told : (script.history settings).ids =
      script.directives.filterMap fun directive =>
        directive.quotedId?.or directive.madeId? := by
    refine captions.trans (List.filterMap_congr fun directive member => ?_)
    exact Directive.map_id_caption? (solid directive member)
  rw [told]
  exact perm_filterMap_or script.directives Directive.quotedId?_or_madeId?_eq_none

/-- Identifiers are made for commits without one of their own and for merges. -/
theorem mem_madeIds_iff
    {script : Script}
    {id : String} :
    id ∈ script.directives.filterMap Directive.madeId? ↔
      (∃ index tag, .commit index none tag ∈ script.directives ∧ id = commitId index) ∨
        ∃ index name, .merge index name ∈ script.directives ∧ id = mergeId index := by
  rw [List.mem_filterMap]
  constructor
  · rintro ⟨directive, member, made⟩
    cases directive with
    | commit index quoted tag =>
        cases quoted with
        | none =>
            exact Or.inl ⟨index, tag, member, (Option.some.inj made).symm⟩
        | some quoted =>
            contradiction
    | merge index name =>
        exact Or.inr ⟨index, name, member, (Option.some.inj made).symm⟩
    | _ =>
        contradiction
  · rintro (⟨index, tag, member, rfl⟩ | ⟨index, name, member, rfl⟩)
    · exact ⟨_, member, rfl⟩
    · exact ⟨_, member, rfl⟩

/--
The commits of a source have different identifiers exactly if no identifier is
quoted twice, none is quoted that is made for a commit without one, and none is
quoted that is made for a merge. Those that are made are always different.
-/
theorem ids_are_distinct_iff
    (settings : Settings)
    {source : String}
    {script : Script}
    (read : ofSource source = .ok script) :
    ((script.history settings).ids.Nodup ↔
      (script.directives.filterMap Directive.quotedId?).Nodup ∧
        (∀ id ∈ script.directives.filterMap Directive.quotedId?,
          ∀ index tag,
            .commit index none tag ∈ script.directives →
              id ≠ "c" ++ integerText index) ∧
        ∀ id ∈ script.directives.filterMap Directive.quotedId?,
          ∀ index name,
            .merge index name ∈ script.directives →
              id ≠ "merge-" ++ integerText index) ∧
      (script.directives.filterMap Directive.madeId?).Nodup := by
  obtain ⟨-, rfl⟩ := ofSource_eq_ok_iff.mp read
  have made := nodup_madeIds (pairwise_index_ofLines source.toList)
  refine ⟨?_, made⟩
  have solid : ∀ directive ∈ (ofLines source.toList).directives,
      ∀ id ∈ directive.quotedId?, id ≠ "" :=
    fun _ member _ => quotedId?_ne_empty member
  rw [(ids_perm settings solid).nodup_iff, List.nodup_append]
  constructor
  · rintro ⟨quoted, -, apart⟩
    refine ⟨quoted, ?_, ?_⟩
    · intro id isQuoted index tag member
      exact apart id isQuoted _ (mem_madeIds_iff.mpr (Or.inl ⟨index, tag, member, rfl⟩))
    · intro id isQuoted index name member
      exact apart id isQuoted _ (mem_madeIds_iff.mpr (Or.inr ⟨index, name, member, rfl⟩))
  · rintro ⟨quoted, noCommit, noMerge⟩
    refine ⟨quoted, made, ?_⟩
    rintro id isQuoted _ isMade rfl
    rcases mem_madeIds_iff.mp isMade with ⟨index, tag, member, same⟩ | ⟨index, name, member, same⟩
    · exact noCommit id isQuoted index tag member same
    · exact noMerge id isQuoted index name member same

/-- A commit may quote what would be made for itself, but not what is made for the next one. -/
theorem ids_are_distinct_unless_quoted_ahead :
    (∃ script,
      ofSource "commit id:\"c0\"\ncommit\nmerge main" = .ok script ∧
        (script.history {}).ids.Nodup) ∧
      ∃ script,
        ofSource "commit id:\"c1\"\ncommit\nmerge main" = .ok script ∧
          ¬ (script.history {}).ids.Nodup := by
  constructor
  · have read : ofSource "commit id:\"c0\"\ncommit\nmerge main" =
        .ok ⟨[.commit 0 (some "c0") none, .commit 1 none none, .merge 2 "main"]⟩ := by
      rfl
    refine ⟨_, read, (ids_are_distinct_iff {} read).1.mpr ⟨by decide, ?_, ?_⟩⟩
    · intro id isQuoted index tag member
      obtain rfl : id = "c0" := by simpa [Directive.quotedId?] using isQuoted
      obtain ⟨rfl, rfl⟩ : index = 1 ∧ tag = none := by simpa using member
      decide
    · intro id isQuoted index name member
      obtain rfl : id = "c0" := by simpa [Directive.quotedId?] using isQuoted
      obtain ⟨rfl, rfl⟩ : index = 2 ∧ name = "main" := by simpa using member
      decide
  · have read : ofSource "commit id:\"c1\"\ncommit\nmerge main" =
        .ok ⟨[.commit 0 (some "c1") none, .commit 1 none none, .merge 2 "main"]⟩ := by
      rfl
    refine ⟨_, read, fun distinct => ?_⟩
    have apart := ((ids_are_distinct_iff {} read).1.mp distinct).2.1
    exact apart "c1" (by decide) 1 none (by decide) (by decide)

end Script

end GitLanes
