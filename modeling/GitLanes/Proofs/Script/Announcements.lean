import GitLanes.Proofs.Script.Names

namespace GitLanes

/-!
# Announced kinds of diagram

The first spoken line of a source announces a kind of diagram by the longest
keyword that it starts with. A source is refused exactly if that is the keyword of
another kind than a git graph. No such keyword starts with the header of a git graph
or with the keyword of a directive, so nothing that follows one of these, not even
directly, can make a source refused.
-/

/-- Whether a text is a letter followed by letters, digits and dashes. -/
def IsKeyword : List Char → Prop
  | [] => False
  | first :: rest =>
      first ∈ asciiLetters ∧ ∀ character ∈ rest, character ∈ asciiLetters ++ asciiDigits ++ ['-']

/-- The longest keyword that a line starts with. -/
structure OpensWith (line word : List Char) : Prop where
  starts : word <+: line
  isKeyword : IsKeyword word
  longest : ∀ other : List Char, other <+: line → IsKeyword other → other.length ≤ word.length

theorem isKeywordCharacter_iff_mem
    (character : Char) :
    isKeywordCharacter character = true ↔
      character ∈ asciiLetters ++ asciiDigits ++ ['-'] := by
  simp only [isKeywordCharacter, Char.isAlphanum, Bool.or_eq_true, isAlpha_iff_mem,
    isDigit_iff_mem, beq_iff_eq, List.mem_append, List.mem_singleton]

/-- A line starts with its opening word. -/
theorem openingWord_starts (line : List Char) : openingWord line <+: line := by
  cases line with
  | nil =>
      exact List.nil_prefix
  | cons first rest =>
      rw [openingWord]
      split
      · exact List.cons_prefix_cons.mpr ⟨rfl, List.takeWhile_prefix _⟩
      · exact List.nil_prefix

theorem isKeyword_openingWord
    {line : List Char}
    (opens : openingWord line ≠ []) :
    IsKeyword (openingWord line) := by
  cases line with
  | nil =>
      exact (opens rfl).elim
  | cons first rest =>
      rw [openingWord] at opens ⊢
      split
      case isTrue isLetter =>
        exact ⟨(isAlpha_iff_mem first).mp isLetter, fun character member =>
          (isKeywordCharacter_iff_mem character).mp (List.mem_takeWhile_imp member)⟩
      case isFalse noLetter =>
        exact (opens (if_neg noLetter)).elim

/-- Every keyword that a line starts with is a part of its opening word. -/
theorem IsKeyword.prefix_openingWord
    {word line : List Char}
    (isKeyword : IsKeyword word)
    (starts : word <+: line) :
    word <+: openingWord line := by
  obtain ⟨rest, rfl⟩ := starts
  cases word with
  | nil =>
      exact isKeyword.elim
  | cons first others =>
      have inWord : ∀ character ∈ others, isKeywordCharacter character = true :=
        fun character member =>
          (isKeywordCharacter_iff_mem character).mpr (isKeyword.2 character member)
      rw [List.cons_append, openingWord, if_pos ((isAlpha_iff_mem first).mpr isKeyword.1),
        List.takeWhile_append_of_pos inWord]
      exact List.cons_prefix_cons.mpr ⟨rfl, List.prefix_append _ _⟩

/-- The keyword that a line opens with is its opening word. -/
theorem opensWith_iff
    {line word : List Char} :
    OpensWith line word ↔ word ≠ [] ∧ openingWord line = word := by
  constructor
  · rintro ⟨starts, isKeyword, longest⟩
    have inOpening := isKeyword.prefix_openingWord starts
    have nonempty : word ≠ [] := by
      rintro rfl
      exact isKeyword
    have opens : openingWord line ≠ [] := by
      intro nothing
      rw [nothing] at inOpening
      exact nonempty (List.prefix_nil.mp inOpening)
    have bounded := longest _ (openingWord_starts line) (isKeyword_openingWord opens)
    exact ⟨nonempty, (inOpening.eq_of_length_le bounded).symm⟩
  · rintro ⟨nonempty, rfl⟩
    exact ⟨openingWord_starts line, isKeyword_openingWord nonempty,
      fun other starts isKeyword => (isKeyword.prefix_openingWord starts).length_le⟩

namespace DiagramKind

/-- A word announces a kind exactly if it is the keyword of that kind. -/
theorem ofKeyword?_eq_some_iff
    {word : List Char}
    {kind : DiagramKind} :
    ofKeyword? word = some kind ↔ kind.keyword.toList = word := by
  constructor
  · intro found
    have selected := List.find?_some (p := fun kind : DiagramKind => kind.keyword.toList == word)
      found
    exact beq_iff_eq.mp selected
  · rintro rfl
    cases kind <;> rfl

theorem keyword_ne_nil (kind : DiagramKind) : kind.keyword.toList ≠ [] := by
  cases kind <;> decide

end DiagramKind

/-- A source is a foreign diagram exactly if its first spoken line opens with the keyword of one. -/
theorem diagramKind_eq_iff
    {source : List Char}
    {kind : DiagramKind}
    (foreign : kind ≠ .gitGraph) :
    diagramKind source = kind ↔
      ∃ line word,
        (spokenLines source).head? = some line ∧ OpensWith line word ∧
          word = kind.keyword.toList := by
  rw [diagramKind_eq]
  cases (spokenLines source).head? with
  | none =>
      simp [foreign.symm]
  | some line =>
      have announced : (DiagramKind.ofKeyword? (openingWord line)).getD .gitGraph = kind ↔
          DiagramKind.ofKeyword? (openingWord line) = some kind := by
        cases DiagramKind.ofKeyword? (openingWord line) with
        | none =>
            simp [foreign.symm]
        | some other =>
            simp
      rw [Option.bind_some, announced, DiagramKind.ofKeyword?_eq_some_iff]
      constructor
      · intro opens
        exact ⟨line, _, rfl, opensWith_iff.mpr ⟨kind.keyword_ne_nil, opens.symm⟩, rfl⟩
      · rintro ⟨_, _, same, opensWith, rfl⟩
        obtain rfl := Option.some.inj same
        exact (opensWith_iff.mp opensWith).2.symm

/-- The words that a git graph starts with: its header and the keywords of directives. -/
def gitGraphWords : List String :=
  ["gitGraph", "commit", "branch", "checkout", "merge"]

theorem isKeyword_of_mem_gitGraphWords
    {word : String}
    (listed : word ∈ gitGraphWords) :
    IsKeyword word.toList := by
  have whole : gitGraphWords.all fun word =>
      openingWord word.toList == word.toList && !(word.toList.isEmpty) := by
    decide
  have here := List.all_eq_true.mp whole word listed
  rw [Bool.and_eq_true, beq_iff_eq, Bool.not_eq_true', List.isEmpty_eq_false_iff] at here
  rw [← here.1]
  exact isKeyword_openingWord (here.1.symm ▸ here.2)

/-- No foreign keyword starts with a word of a script. -/
theorem DiagramKind.eq_gitGraph_of_prefix
    {word : String}
    (listed : word ∈ gitGraphWords)
    {kind : DiagramKind}
    (starts : word.toList <+: kind.keyword.toList) :
    kind = .gitGraph := by
  have apart : DiagramKind.all.all fun kind => kind == .gitGraph ||
      gitGraphWords.all fun word => !word.toList.isPrefixOf kind.keyword.toList := by
    decide +kernel
  have here := List.all_eq_true.mp apart kind kind.mem_all
  rw [Bool.or_eq_true, beq_iff_eq, List.all_eq_true] at here
  refine here.resolve_right fun absent => ?_
  simpa [List.isPrefixOf_iff_prefix.mpr starts] using absent word listed

/-- A line that is recognized starts with a word of a script. -/
theorem Directive.exists_gitGraphWord
    {index : Int}
    {line : List Char}
    (recognized : (ofLine index line).isRecognized = true) :
    ∃ word ∈ gitGraphWords, word.toList <+: line := by
  have form := form_ofLine index line
  generalize ofLine index line = directive at form recognized
  cases form with
  | commit text written =>
      exact ⟨"commit", by decide, text, written.symm⟩
  | named verb _ reads =>
      obtain ⟨naming, rest, -, rfl, -⟩ := namedAfter?_eq_some_iff.mp reads
      refine ⟨verb.keyword, by cases verb <;> decide, ?_⟩
      rw [Naming.write_append]
      exact List.prefix_append _ _
  | unread =>
      contradiction

namespace Script

/-- A source whose first spoken line starts like a git graph is not refused. -/
theorem ofSource_of_gitGraphWord
    {source : String}
    {line : List Char}
    (first : (spokenLines source.toList).head? = some line)
    {word : String}
    (listed : word ∈ gitGraphWords)
    (starts : word.toList <+: line) :
    ofSource source = .ok (ofLines source.toList) := by
  refine ofSource_eq_ok_iff.mpr ⟨?_, rfl⟩
  by_contra foreign
  obtain ⟨other, opening, alsoFirst, opens, rfl⟩ := (diagramKind_eq_iff foreign).mp rfl
  obtain rfl := Option.some.inj (first.symm.trans alsoFirst)
  have inOpening := (isKeyword_of_mem_gitGraphWords listed).prefix_openingWord starts
  rw [(opensWith_iff.mp opens).2] at inOpening
  exact foreign (DiagramKind.eq_gitGraph_of_prefix listed inOpening)

/--
Sources are refused by their first word alone.

A source is refused exactly if its first spoken line opens with the keyword of another kind than a
git graph, which the refusal names, and every other source is read line by line. In particular no
source is refused whose first spoken line starts with the header of a git graph or says a
directive.
-/
theorem sources_are_refused_by_first_word (source : String) :
    (∀ fault,
      ofSource source = .error fault ↔
        ∃ line word kind,
          (spokenLines source.toList).head? = some line ∧ OpensWith line word ∧
            word = (DiagramKind.keyword kind).toList ∧ kind ≠ .gitGraph ∧
              fault = .unsupportedDiagram kind ∧
                fault.message = "Unsupported diagram type: " ++ String.ofList word) ∧
    (ofSource source = .ok (ofLines source.toList) ↔
      ∀ line word kind,
        (spokenLines source.toList).head? = some line →
          OpensWith line word →
            word = (DiagramKind.keyword kind).toList →
              kind = .gitGraph) ∧
    ∀ line,
      (spokenLines source.toList).head? = some line →
        ("gitGraph".toList <+: line ∨
            ∃ index, (Directive.ofLine index line).isRecognized = true) →
          ofSource source = .ok (ofLines source.toList) := by
  refine ⟨fun fault => ⟨?refused, ?foreign⟩, ⟨?read, ?gitGraph⟩, ?never⟩
  case refused =>
    intro refused
    have foreign : diagramKind source.toList ≠ .gitGraph := by
      intro isGitGraph
      rw [ofSource_eq_ok_iff.mpr ⟨isGitGraph, rfl⟩] at refused
      contradiction
    obtain rfl := Except.error.inj ((ofSource_eq_error foreign).symm.trans refused)
    obtain ⟨line, word, first, opens, isKeyword⟩ := (diagramKind_eq_iff foreign).mp rfl
    refine ⟨line, word, _, first, opens, isKeyword, foreign, rfl, ?_⟩
    rw [isKeyword, String.ofList_toList]
    rfl
  case foreign =>
    rintro ⟨line, word, kind, first, opens, isKeyword, foreign, rfl, -⟩
    have announced : diagramKind source.toList = kind :=
      (diagramKind_eq_iff foreign).mpr ⟨line, word, first, opens, isKeyword⟩
    rw [← announced] at foreign ⊢
    exact ofSource_eq_error foreign
  case read =>
    intro read line word kind first opens isKeyword
    by_contra foreign
    have announced : diagramKind source.toList = kind :=
      (diagramKind_eq_iff foreign).mpr ⟨line, word, first, opens, isKeyword⟩
    exact foreign (announced.symm.trans (ofSource_eq_ok_iff.mp read).1)
  case gitGraph =>
    intro onlyGitGraph
    refine ofSource_eq_ok_iff.mpr ⟨?_, rfl⟩
    by_contra foreign
    obtain ⟨line, word, first, opens, isKeyword⟩ := (diagramKind_eq_iff foreign).mp rfl
    exact foreign (onlyGitGraph line word _ first opens isKeyword)
  case never =>
    rintro line first (header | ⟨index, recognized⟩)
    · exact ofSource_of_gitGraphWord first (by decide) header
    · obtain ⟨word, listed, starts⟩ := Directive.exists_gitGraphWord recognized
      exact ofSource_of_gitGraphWord first listed starts

end Script

end GitLanes
