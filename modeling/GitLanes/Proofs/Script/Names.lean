import GitLanes.Conversion
import GitLanes.Proofs.Attempts
import GitLanes.Proofs.Layout.Timeline
import GitLanes.Proofs.Script.Reading

namespace GitLanes

/-!
# The grammar of names

A line that is no commit is read by the verb that it starts with, if blanks of
ASCII and a name follow, and the name goes on as long as its characters do. No
line can be read by two verbs, so it makes no difference which is tried first. All
branches but the main one got their names in this way.
-/

/-- The characters of names. -/
def nameAlphabet : List Char :=
  asciiLetters ++ asciiDigits ++ ['_', '-']

/-- Blanks and a name, as they follow a verb. -/
structure Naming where
  gap : List Char
  name : List Char
  gap_ne_nil : gap ≠ []
  gap_blank : ∀ character ∈ gap, character ∈ asciiBlanks
  name_ne_nil : name ≠ []
  name_spelled : ∀ character ∈ name, character ∈ nameAlphabet

namespace Naming

/-- The name as a text. -/
def text (naming : Naming) : String :=
  String.ofList naming.name

/-- A name as it is written behind a keyword. -/
def write (keyword : String) (naming : Naming) : List Char :=
  keyword.toList ++ (naming.gap ++ naming.name)

end Naming

/-- Whether a name can end in front of a text. -/
def EndsName (rest : List Char) : Prop :=
  ∀ next ∈ rest.head?, next ∉ nameAlphabet

/-- Whether a text is a word over the characters of names. -/
def IsName (name : String) : Prop :=
  name ≠ "" ∧ ∀ character ∈ name.toList, character ∈ nameAlphabet

/-- The characters of names are letters, digits, underscores and dashes. -/
theorem isNameCharacter_iff_mem
    (character : Char) :
    isNameCharacter character = true ↔ character ∈ nameAlphabet := by
  simp only [isNameCharacter, Char.isAlphanum, Bool.or_eq_true, isAlpha_iff_mem, isDigit_iff_mem,
    beq_iff_eq, nameAlphabet, List.mem_append, List.mem_cons, List.not_mem_nil, or_false, or_assoc]

theorem isAsciiBlank_eq_false_of_mem
    {character : Char}
    (inAlphabet : character ∈ nameAlphabet) :
    isAsciiBlank character = false := by
  have solid : nameAlphabet.all fun other => !isAsciiBlank other := by
    decide +kernel
  simpa using List.all_eq_true.mp solid character inAlphabet

theorem EndsName.isNameCharacter_eq_false
    {rest : List Char}
    (ends : EndsName rest) :
    ∀ next ∈ rest.head?, isNameCharacter next = false := by
  intro next starts
  rw [Bool.eq_false_iff, Ne, isNameCharacter_iff_mem]
  exact ends next starts

namespace Naming

/-- What is written as a name is a name. -/
theorem isName_text (naming : Naming) : IsName naming.text := by
  refine ⟨fun empty => naming.name_ne_nil (String.ofList_eq_empty_iff.mp empty), ?_⟩
  rw [text, String.toList_ofList]
  exact naming.name_spelled

theorem isAsciiBlank_gap (naming : Naming) :
    ∀ character ∈ naming.gap, isAsciiBlank character = true :=
  fun character member => (isAsciiBlank_iff_mem character).mpr (naming.gap_blank character member)

theorem isNameCharacter_name (naming : Naming) :
    ∀ character ∈ naming.name, isNameCharacter character = true :=
  fun character member =>
    (isNameCharacter_iff_mem character).mpr (naming.name_spelled character member)

/-- The blanks in front of a name end where it starts. -/
theorem ends_gap
    (naming : Naming)
    (rest : List Char) :
    ∀ next ∈ (naming.name ++ rest).head?, isAsciiBlank next = false := by
  cases shape : naming.name with
  | nil =>
      exact (naming.name_ne_nil shape).elim
  | cons first others =>
      intro next starts
      cases starts
      exact isAsciiBlank_eq_false_of_mem
        (naming.name_spelled first (shape ▸ List.mem_cons_self))

theorem write_append
    (keyword : String)
    (naming : Naming)
    (rest : List Char) :
    naming.write keyword ++ rest = keyword.toList ++ (naming.gap ++ (naming.name ++ rest)) := by
  simp [write]

/-- A name can be cut off what follows a keyword in one way only. -/
theorem write_append_inj
    {keyword : String}
    {first second : Naming}
    {firstRest secondRest : List Char}
    (firstEnds : EndsName firstRest)
    (secondEnds : EndsName secondRest)
    (same : first.write keyword ++ firstRest = second.write keyword ++ secondRest) :
    first = second ∧ firstRest = secondRest := by
  rw [write_append, write_append] at same
  obtain ⟨sameGap, afterGap⟩ :=
    run_append_inj first.isAsciiBlank_gap (first.ends_gap _) second.isAsciiBlank_gap
      (second.ends_gap _) (List.append_cancel_left same)
  obtain ⟨sameName, sameRest⟩ :=
    run_append_inj first.isNameCharacter_name firstEnds.isNameCharacter_eq_false
      second.isNameCharacter_name secondEnds.isNameCharacter_eq_false afterGap
  refine ⟨?_, sameRest⟩
  cases first
  cases second
  simp_all

end Naming

/-- A name is read behind a keyword exactly if the line is written that way. -/
theorem namedAfter?_eq_some_iff
    {keyword name : String}
    {line : List Char} :
    namedAfter? keyword line = some name ↔
      ∃ (naming : Naming) (rest : List Char),
        EndsName rest ∧ line = naming.write keyword ++ rest ∧ name = naming.text := by
  simp only [namedAfter?, Option.bind_eq_bind, Option.bind_eq_some_iff,
    List.isPrefixOf?_eq_some_iff_append_eq, afterBlanks?_eq_some_iff]
  constructor
  · rintro ⟨_, rfl, named, ⟨gap, gap_ne_nil, blank, -, rfl⟩, found⟩
    split at found
    · contradiction
    case h_2 first others shape =>
      obtain rfl := Option.some.inj found
      have spelled : ∀ character ∈ first :: others, character ∈ nameAlphabet := by
        intro character member
        exact (isNameCharacter_iff_mem character).mp (List.mem_takeWhile_imp (shape ▸ member))
      refine ⟨⟨gap, first :: others, gap_ne_nil,
        fun character member => (isAsciiBlank_iff_mem character).mp (blank character member),
        List.cons_ne_nil _ _, spelled⟩, named.dropWhile isNameCharacter, ?_, ?_, rfl⟩
      · intro next starts
        rw [← isNameCharacter_iff_mem, head?_dropWhile_eq_false next starts]
        exact Bool.false_ne_true
      · have whole : named = first :: others ++ named.dropWhile isNameCharacter := by
          rw [← shape, List.takeWhile_append_dropWhile]
        rw [Naming.write_append]
        exact congrArg (fun after => keyword.toList ++ (gap ++ after)) whole
  · rintro ⟨naming, rest, ends, rfl, rfl⟩
    refine ⟨_, (naming.write_append keyword rest).symm, _, ⟨naming.gap, naming.gap_ne_nil,
      naming.isAsciiBlank_gap, naming.ends_gap rest, rfl⟩, ?_⟩
    rw [takeWhile_run naming.isNameCharacter_name ends.isNameCharacter_eq_false]
    cases shape : naming.name with
    | nil =>
        exact (naming.name_ne_nil shape).elim
    | cons first others =>
        simp [Naming.text, shape]

/-- No line can be read by two verbs. -/
theorem NamingVerb.eq_of_write_append
    {first second : NamingVerb}
    {firstNaming secondNaming : Naming}
    {firstRest secondRest : List Char}
    (same :
      firstNaming.write first.keyword ++ firstRest =
        secondNaming.write second.keyword ++ secondRest) :
    first = second := by
  have initial : ∀ (verb : NamingVerb) (naming : Naming) (rest : List Char),
      (naming.write verb.keyword ++ rest).head? = verb.keyword.toList.head? := by
    intro verb naming rest
    cases verb <;> rfl
  have sameInitial : first.keyword.toList.head? = second.keyword.toList.head? := by
    rw [← initial first firstNaming firstRest, same, initial]
  cases first <;> cases second <;> simp_all [keyword]

namespace Directive

/-- A line has one form only. -/
theorem Form.unique
    {index : Int}
    {line : List Char}
    {first second : Directive}
    (firstForm : Form index line first)
    (secondForm : Form index line second) :
    first = second := by
  cases firstForm with
  | commit text written =>
      have commits : "commit".toList <+: line := ⟨text, written.symm⟩
      cases secondForm with
      | commit other alsoWritten =>
          rw [List.append_cancel_left (written.symm.trans alsoWritten)]
      | named verb plain =>
          exact (plain commits).elim
      | unread plain =>
          exact (plain commits).elim
  | named verb plain reads =>
      cases secondForm with
      | commit text written =>
          exact (plain ⟨text, written.symm⟩).elim
      | named other _ otherReads =>
          obtain ⟨naming, rest, -, written, -⟩ := namedAfter?_eq_some_iff.mp reads
          obtain ⟨otherNaming, otherRest, -, alsoWritten, -⟩ :=
            namedAfter?_eq_some_iff.mp otherReads
          obtain rfl := NamingVerb.eq_of_write_append (written.symm.trans alsoWritten)
          rw [Option.some.inj (reads.symm.trans otherReads)]
      | unread _ unnamed =>
          rw [unnamed verb] at reads
          contradiction
  | unread plain unnamed =>
      cases secondForm with
      | commit text written =>
          exact (plain ⟨text, written.symm⟩).elim
      | named verb _ reads =>
          rw [unnamed verb] at reads
          contradiction
      | unread =>
          rfl

/-- A verb is read exactly if a name is read behind its keyword. -/
theorem ofLine_eq_directive_iff
    {index number : Int}
    {line : List Char}
    (plain : ¬ "commit".toList <+: line)
    {verb : NamingVerb}
    {name : String} :
    ofLine index line = verb.directive number name ↔
      number = index ∧ namedAfter? verb.keyword line = some name := by
  constructor
  · intro read
    have form := form_ofLine index line
    generalize ofLine index line = directive at form read
    cases form with
    | commit text written =>
        exact (plain ⟨text, written.symm⟩).elim
    | named other _ reads =>
        obtain ⟨rfl, rfl, rfl⟩ := NamingVerb.directive_inj read
        exact ⟨rfl, reads⟩
    | unread =>
        cases verb <;> contradiction
  · rintro ⟨rfl, reads⟩
    exact (form_ofLine _ line).unique (.named verb plain reads)

/-- A line is not recognized exactly if no verb has a name behind it. -/
theorem ofLine_eq_unrecognized_iff
    {index : Int}
    {line : List Char}
    (plain : ¬ "commit".toList <+: line) :
    ofLine index line = .unrecognized index (String.ofList line) ↔
      ∀ verb : NamingVerb, namedAfter? verb.keyword line = none := by
  constructor
  · intro unrecognized verb
    cases reads : namedAfter? verb.keyword line with
    | none =>
        rfl
    | some name =>
        have named : ofLine index line = verb.directive index name :=
          (ofLine_eq_directive_iff plain).mpr ⟨rfl, reads⟩
        rw [unrecognized] at named
        cases verb <;> contradiction
  · intro unnamed
    exact (form_ofLine index line).unique (.unread plain unnamed)

/-- A name that a line declares is a word over the characters of names. -/
theorem isName_of_declared?
    {index : Int}
    {line : List Char}
    {name : String}
    (declares : (ofLine index line).declared? = some name) :
    IsName name := by
  have form := form_ofLine index line
  generalize ofLine index line = directive at form declares
  cases form with
  | commit =>
      contradiction
  | unread =>
      contradiction
  | named verb _ reads =>
      obtain ⟨naming, rest, -, -, rfl⟩ := namedAfter?_eq_some_iff.mp reads
      cases verb with
      | branch =>
          obtain rfl := Option.some.inj declares
          exact naming.isName_text
      | checkout =>
          contradiction
      | merge =>
          contradiction

end Directive

namespace Script

/-- The branches that a source declares have names in the sense of the grammar. -/
theorem isName_of_declared?
    {source : List Char}
    {directive : Directive}
    (member : directive ∈ (ofLines source).directives)
    {name : String}
    (declares : directive.declared? = some name) :
    IsName name := by
  obtain ⟨position, found⟩ := List.mem_iff_getElem?.mp member
  obtain ⟨line, rfl⟩ := getElem?_ofLines found
  exact Directive.isName_of_declared? declares

/-- The branches of a source are the main one and those with a name over the characters of names. -/
theorem isName_of_branch
    {settings : Settings}
    {source : List Char}
    {branch : Branch}
    (member : branch ∈ ((ofLines source).history settings).branches) :
    branch.name = mainBranch ∨ IsName branch.name := by
  have known : branch.name ∈
      (Layout.replay settings (ofLines source).directives).table.names :=
    List.mem_map_of_mem member
  refine (Layout.mem_names_replay_iff.mp known).imp_right ?_
  rintro ⟨directive, isDirective, declares⟩
  exact isName_of_declared? isDirective declares

end Script

/--
Lines that are no commits are read by a grammar of verbs and names.

A line is read by a verb exactly if it is the verb, blanks of ASCII and a name that what follows
does not go on with, and it is left unread as it stands exactly if no verb reads it. The verbs may be
tried in any order, since a line says in one way at most which verb and which name it holds. So
every branch of a laid out source but the main one is called by a word over the characters of
names.
-/
theorem names_are_read_by_grammar :
    (∀ (index : Int) (line : List Char),
      ¬ "commit".toList <+: line →
        (∀ (verb : NamingVerb) (number : Int) (name : String),
          Directive.ofLine index line = verb.directive number name ↔
            number = index ∧
              ∃ (naming : Naming) (rest : List Char),
                EndsName rest ∧ line = naming.write verb.keyword ++ rest ∧ name = naming.text) ∧
        (Directive.ofLine index line = .unrecognized index (String.ofList line) ↔
          ∀ (verb : NamingVerb) (naming : Naming) (rest : List Char),
            EndsName rest → line ≠ naming.write verb.keyword ++ rest) ∧
        ∀ verbs : List NamingVerb,
          (∀ verb, verb ∈ verbs) →
            Directive.byVerbs verbs index line = Directive.ofLine index line) ∧
    (∀ (first second : NamingVerb) (firstNaming secondNaming : Naming)
        (firstRest secondRest : List Char),
      EndsName firstRest →
        EndsName secondRest →
          firstNaming.write first.keyword ++ firstRest =
              secondNaming.write second.keyword ++ secondRest →
            first = second ∧ firstNaming = secondNaming ∧ firstRest = secondRest) ∧
    ∀ (settings : Settings) (source : String) (history : History),
      layoutSource settings source = .ok history →
        ∀ branch ∈ history.branches, branch.name = mainBranch ∨ IsName branch.name := by
  refine ⟨fun index line plain => ⟨?verb, ?unread, ?order⟩, ?unique, ?branches⟩
  case verb =>
    intro verb number name
    rw [Directive.ofLine_eq_directive_iff plain, namedAfter?_eq_some_iff]
  case unread =>
    rw [Directive.ofLine_eq_unrecognized_iff plain]
    simp only [Option.eq_none_iff_forall_ne_some, Ne, namedAfter?_eq_some_iff]
    constructor
    · intro unnamed verb naming rest ends written
      exact unnamed verb naming.text ⟨naming, rest, ends, written, rfl⟩
    · rintro unwritten verb name ⟨naming, rest, ends, written, -⟩
      exact unwritten verb naming rest ends written
  case order =>
    intro verbs complete
    exact (Directive.form_byVerbs complete index plain).unique (Directive.form_ofLine index line)
  case unique =>
    intro first second firstNaming secondNaming firstRest secondRest firstEnds secondEnds same
    obtain rfl := NamingVerb.eq_of_write_append same
    exact ⟨rfl, Naming.write_append_inj firstEnds secondEnds same⟩
  case branches =>
    intro settings source history laid branch member
    obtain ⟨script, read, rfl⟩ := map_eq_ok_iff.mp laid
    obtain ⟨-, rfl⟩ := Script.ofSource_eq_ok_iff.mp read
    exact Script.isName_of_branch member

/-- A letter beyond ASCII ends a name. -/
example : Directive.ofLine 0 "branch féature".toList = .branch 0 "f" := by
  decide

end GitLanes
