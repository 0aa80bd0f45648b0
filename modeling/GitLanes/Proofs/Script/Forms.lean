import GitLanes.Proofs.Text.Runs
import GitLanes.Script.Line
import Mathlib.Data.List.Basic

namespace GitLanes

/-!
# The forms of a line

A line is read in one of three ways: as a commit, by one of the verbs that a name
follows, or not at all. What is told of every directive that a line says is told
of these three.
-/

theorem isPrefixOf?_eq_none_iff
    {front text : List Char} :
    front.isPrefixOf? text = none ↔ ¬ front <+: text := by
  rw [← Option.not_isSome_iff_eq_none, List.isSome_isPrefixOf?_eq_isPrefixOf,
    List.isPrefixOf_iff_prefix]

/-- What follows blanks is cut off behind all of them. -/
theorem afterBlanks?_eq_some_iff
    {blank : Char → Bool}
    {text rest : List Char} :
    afterBlanks? blank text = some rest ↔
      ∃ gap,
        gap ≠ [] ∧ (∀ character ∈ gap, blank character = true) ∧
          (∀ next ∈ rest.head?, blank next = false) ∧ text = gap ++ rest := by
  constructor
  · intro read
    cases text with
    | nil =>
        contradiction
    | cons first others =>
        obtain ⟨firstBlank, same⟩ := Option.ite_none_right_eq_some.mp read
        obtain rfl := Option.some.inj same
        refine ⟨first :: others.takeWhile blank, List.cons_ne_nil _ _, ?_,
          head?_dropWhile_eq_false, ?_⟩
        · rw [List.forall_mem_cons]
          exact ⟨firstBlank, fun _ member => List.mem_takeWhile_imp member⟩
        · rw [List.cons_append, List.takeWhile_append_dropWhile]
  · rintro ⟨gap, nonempty, inGap, ends, rfl⟩
    cases gap with
    | nil =>
        contradiction
    | cons first others =>
        rw [List.forall_mem_cons] at inGap
        rw [List.cons_append, afterBlanks?, if_pos inGap.1, dropWhile_run inGap.2 ends]

/-- The verbs that are followed by the name of a branch. -/
inductive NamingVerb
  | branch
  | checkout
  | merge
  deriving Repr, DecidableEq

namespace NamingVerb

/-- The keyword of a verb. -/
def keyword : NamingVerb → String
  | .branch => "branch"
  | .checkout => "checkout"
  | .merge => "merge"

/-- The directive that a verb and a name make. -/
def directive : NamingVerb → (index : Int) → (name : String) → Directive
  | .branch => .branch
  | .checkout => .checkout
  | .merge => .merge

/-- What a verb and a name make tells which verb and which name it was. -/
theorem directive_inj
    {first second : NamingVerb}
    {index number : Int}
    {name other : String}
    (same : first.directive index name = second.directive number other) :
    first = second ∧ index = number ∧ name = other := by
  cases first <;> cases second <;> cases same <;> exact ⟨rfl, rfl, rfl⟩

end NamingVerb

namespace Directive

/-- What a line is read as by the first of some verbs that a name follows. -/
def byVerbs (verbs : List NamingVerb) (index : Int) (line : List Char) : Directive :=
  (verbs.findSome? fun verb => (namedAfter? verb.keyword line).map (verb.directive index)).getD
    (.unrecognized index (String.ofList line))

/-- A line that starts with the word commit is a commit, whatever follows. -/
theorem ofLine_of_commit
    (index : Int)
    (text : List Char) :
    ofLine index ("commit".toList ++ text) =
      .commit index (commitFields text).1 (commitFields text).2 := by
  rw [ofLine, List.isPrefixOf?_eq_some_iff_append_eq.mpr rfl]

/-- Every other line is tried with the verbs in their order. -/
theorem ofLine_of_not_commit
    (index : Int)
    {line : List Char}
    (plain : ¬ "commit".toList <+: line) :
    ofLine index line = byVerbs [.branch, .checkout, .merge] index line := by
  rw [ofLine, isPrefixOf?_eq_none_iff.mpr plain, byVerbs, List.findSome?_cons, List.findSome?_cons,
    List.findSome?_cons, List.findSome?_nil, NamingVerb.keyword, NamingVerb.keyword,
    NamingVerb.keyword]
  cases namedAfter? "branch" line <;> cases namedAfter? "checkout" line <;>
    cases namedAfter? "merge" line <;> rfl

/-- All that a line can be read as. -/
inductive Form (index : Int) (line : List Char) : Directive → Prop
  | commit
      (text : List Char)
      (written : line = "commit".toList ++ text) :
      Form index line (.commit index (commitFields text).1 (commitFields text).2)
  | named
      (verb : NamingVerb)
      {name : String}
      (plain : ¬ "commit".toList <+: line)
      (reads : namedAfter? verb.keyword line = some name) :
      Form index line (verb.directive index name)
  | unread
      (plain : ¬ "commit".toList <+: line)
      (unnamed : ∀ verb : NamingVerb, namedAfter? verb.keyword line = none) :
      Form index line (.unrecognized index (String.ofList line))

/-- Trying all verbs, in whatever order, gives one of the forms of a line. -/
theorem form_byVerbs
    {verbs : List NamingVerb}
    (complete : ∀ verb, verb ∈ verbs)
    (index : Int)
    {line : List Char}
    (plain : ¬ "commit".toList <+: line) :
    Form index line (byVerbs verbs index line) := by
  rw [byVerbs]
  cases found : verbs.findSome? fun verb =>
      (namedAfter? verb.keyword line).map (verb.directive index) with
  | none =>
      refine .unread plain fun verb => ?_
      exact Option.map_eq_none_iff.mp (List.findSome?_eq_none_iff.mp found verb (complete verb))
  | some directive =>
      obtain ⟨verb, -, reads⟩ := List.exists_of_findSome?_eq_some found
      obtain ⟨name, named, rfl⟩ := Option.map_eq_some_iff.mp reads
      exact .named verb plain named

/-- Every line has one of the forms. -/
theorem form_ofLine
    (index : Int)
    (line : List Char) :
    Form index line (ofLine index line) := by
  by_cases commits : "commit".toList <+: line
  · obtain ⟨text, rfl⟩ := commits
    rw [ofLine_of_commit]
    exact .commit text rfl
  · rw [ofLine_of_not_commit index commits]
    exact form_byVerbs (fun verb => by cases verb <;> simp) index commits

theorem index_ofLine
    (index : Int)
    (line : List Char) :
    (ofLine index line).index = index := by
  have form := form_ofLine index line
  generalize ofLine index line = directive at form
  cases form with
  | commit text =>
      rfl
  | named verb =>
      cases verb <;> rfl
  | unread =>
      rfl

end Directive

end GitLanes
