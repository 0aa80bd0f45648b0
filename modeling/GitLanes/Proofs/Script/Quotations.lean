import GitLanes.Proofs.Script.Forms

namespace GitLanes

/-!
# The grammar of commit lines

A commit line is its keyword and any text. The text may start with a quotation
under the label of identifiers, and what is left of it with one under the label of
tags. A quotation can be cut off a text in one way only, so a line that was written
with quotations is read back as them, whatever blanks stand in between and
whatever follows.
-/

/-- A quotation under a label, with the blanks in front of the label and behind it. -/
structure Quotation where
  gap : List Char
  space : List Char
  content : List Char
  gap_ne_nil : gap ≠ []
  gap_blank : ∀ character ∈ gap, isBlank character = true
  space_blank : ∀ character ∈ space, isBlank character = true
  content_ne_nil : content ≠ []
  content_unquoted : '"' ∉ content

namespace Quotation

/-- The content of a quotation as a text. -/
def text (quotation : Quotation) : String :=
  String.ofList quotation.content

theorem text_ne_empty (quotation : Quotation) : quotation.text ≠ "" :=
  fun empty => quotation.content_ne_nil (String.ofList_eq_empty_iff.mp empty)

theorem quote_not_mem_text (quotation : Quotation) : '"' ∉ quotation.text.toList := by
  rw [text, String.toList_ofList]
  exact quotation.content_unquoted

/-- A quotation as it is written under a label. -/
def write (label : String) (quotation : Quotation) : List Char :=
  quotation.gap ++ (label.toList ++ (quotation.space ++ '"' :: (quotation.content ++ ['"'])))

end Quotation

/-- A text, the quotation under a label that it starts with if there is one, and what is left. -/
inductive StartsWithField (label : String) : List Char → Option String → List Char → Prop
  | quoted
      (quotation : Quotation)
      (rest : List Char) :
      StartsWithField label (quotation.write label ++ rest) (some quotation.text) rest
  | absent
      {text : List Char}
      (unquoted :
        ∀ (quotation : Quotation) (rest : List Char), text ≠ quotation.write label ++ rest) :
      StartsWithField label text none text

/-- A quote ends the blanks in front of it. -/
theorem quote_ends_blanks (rest : List Char) :
    ∀ next ∈ ('"' :: rest).head?, isBlank next = false := by
  intro next starts
  cases starts
  decide

/-- A quote ends the content in front of it. -/
theorem quote_ends_content (rest : List Char) :
    ∀ next ∈ ('"' :: rest).head?, (next != '"') = false := by
  intro next starts
  cases starts
  decide

theorem bne_quote_of_unquoted
    {content : List Char}
    (unquoted : '"' ∉ content) :
    ∀ character ∈ content, (character != '"') = true := by
  intro character member
  rw [bne_iff_ne]
  rintro rfl
  exact unquoted member

/--
A quoted text is read exactly if there are quotes around it, something between them and
no quote in it.
-/
theorem quoted?_eq_some_iff
    {text content rest : List Char} :
    quoted? text = some (content, rest) ↔
      content ≠ [] ∧ '"' ∉ content ∧ text = '"' :: (content ++ '"' :: rest) := by
  constructor
  · intro read
    unfold quoted? at read
    split at read
    · contradiction
    case h_2 inner opens =>
      have shape := List.isPrefixOf?_eq_some_iff_append_eq.mp opens
      split at read
      case h_1 first others last after taken left =>
        obtain ⟨rfl, rfl⟩ := Prod.mk.inj (Option.some.inj read)
        have closes : last = '"' := by
          have stopped := head?_dropWhile_eq_false last (by rw [left, List.head?_cons]; rfl)
          simpa using stopped
        refine ⟨List.cons_ne_nil _ _, ?_, ?_⟩
        · intro member
          have inRun := List.mem_takeWhile_imp (taken ▸ member)
          simp at inRun
        · rw [← shape, ← closes, ← left, ← taken, List.takeWhile_append_dropWhile, closes]
          rfl
      · contradiction
  · rintro ⟨nonempty, unquoted, rfl⟩
    have inRun := bne_quote_of_unquoted unquoted
    have opens : ['"'].isPrefixOf? ('"' :: (content ++ '"' :: rest)) =
        some (content ++ '"' :: rest) :=
      List.isPrefixOf?_eq_some_iff_append_eq.mpr rfl
    rw [quoted?, opens]
    cases content with
    | nil =>
        contradiction
    | cons first others =>
        simp only [takeWhile_run inRun (quote_ends_content rest),
          dropWhile_run inRun (quote_ends_content rest)]

/-- A label can be told from the blanks in front of it. -/
def IsLabel (label : String) : Prop :=
  ∃ first others, label.toList = first :: others ∧ isBlank first = false

theorem isLabel_id : IsLabel "id:" :=
  ⟨'i', ['d', ':'], rfl, by decide⟩

theorem isLabel_tag : IsLabel "tag:" :=
  ⟨'t', ['a', 'g', ':'], rfl, by decide⟩

/-- A label ends the blanks in front of it. -/
theorem IsLabel.ends_gap
    {label : String}
    (isLabel : IsLabel label)
    (rest : List Char) :
    ∀ next ∈ (label.toList ++ rest).head?, isBlank next = false := by
  obtain ⟨first, others, shape, solid⟩ := isLabel
  rw [shape]
  intro next starts
  cases starts
  exact solid

namespace Quotation

theorem write_append
    (label : String)
    (quotation : Quotation)
    (rest : List Char) :
    quotation.write label ++ rest =
      quotation.gap ++
        (label.toList ++ (quotation.space ++ '"' :: (quotation.content ++ '"' :: rest))) := by
  simp [write]

/-- A quotation can be cut off a text in one way only. -/
theorem write_append_inj
    {label : String}
    (isLabel : IsLabel label)
    {first second : Quotation}
    {firstRest secondRest : List Char}
    (same : first.write label ++ firstRest = second.write label ++ secondRest) :
    first = second ∧ firstRest = secondRest := by
  rw [write_append, write_append] at same
  obtain ⟨sameGap, same⟩ :=
    run_append_inj first.gap_blank (isLabel.ends_gap _) second.gap_blank (isLabel.ends_gap _) same
  obtain ⟨sameSpace, same⟩ :=
    run_append_inj first.space_blank (quote_ends_blanks _) second.space_blank
      (quote_ends_blanks _) (List.append_cancel_left same)
  obtain ⟨sameContent, same⟩ :=
    run_append_inj (bne_quote_of_unquoted first.content_unquoted) (quote_ends_content _)
      (bne_quote_of_unquoted second.content_unquoted) (quote_ends_content _)
      (List.cons.inj same).2
  refine ⟨?_, (List.cons.inj same).2⟩
  cases first
  cases second
  simp_all

end Quotation

/-- A field is read exactly if a quotation is written under its label. -/
theorem field?_eq_some_iff
    {label : String}
    (isLabel : IsLabel label)
    {text content rest : List Char} :
    field? label text = some (content, rest) ↔
      ∃ quotation : Quotation,
        quotation.content = content ∧ text = quotation.write label ++ rest := by
  simp only [field?, Option.bind_eq_bind, Option.bind_eq_some_iff, afterBlanks?_eq_some_iff,
    List.isPrefixOf?_eq_some_iff_append_eq, quoted?_eq_some_iff]
  constructor
  · rintro ⟨_, ⟨gap, gap_ne_nil, gap_blank, -, rfl⟩, valued, rfl, nonempty, unquoted, quotes⟩
    refine ⟨⟨gap, valued.takeWhile isBlank, content, gap_ne_nil, gap_blank,
      fun _ member => List.mem_takeWhile_imp member, nonempty, unquoted⟩, rfl, ?_⟩
    rw [Quotation.write_append, ← quotes, List.takeWhile_append_dropWhile]
  · rintro ⟨quotation, rfl, rfl⟩
    refine ⟨_, ⟨quotation.gap, quotation.gap_ne_nil, quotation.gap_blank,
      isLabel.ends_gap _, quotation.write_append label rest⟩, _, rfl,
      quotation.content_ne_nil, quotation.content_unquoted, ?_⟩
    exact dropWhile_run quotation.space_blank (quote_ends_blanks _)

/-- A field is read exactly if the text starts with it. -/
theorem startsWithField_iff
    {label : String}
    (isLabel : IsLabel label)
    {text rest : List Char}
    {value : Option String} :
    StartsWithField label text value rest ↔
      (field? label text = none ∧ value = none ∧ rest = text) ∨
        ∃ content,
          field? label text = some (content, rest) ∧ value = some (String.ofList content) := by
  constructor
  · intro starts
    cases starts with
    | quoted quotation =>
        exact Or.inr
          ⟨quotation.content, (field?_eq_some_iff isLabel).mpr ⟨quotation, rfl, rfl⟩, rfl⟩
    | absent unquoted =>
        refine Or.inl ⟨?_, rfl, rfl⟩
        rw [Option.eq_none_iff_forall_ne_some]
        rintro ⟨content, after⟩ read
        obtain ⟨quotation, -, written⟩ := (field?_eq_some_iff isLabel).mp read
        exact unquoted quotation after written
  · rintro (⟨unread, rfl, rfl⟩ | ⟨content, read, rfl⟩)
    · refine .absent fun quotation after written => ?_
      rw [(field?_eq_some_iff isLabel).mpr ⟨quotation, rfl, written⟩] at unread
      contradiction
    · obtain ⟨quotation, rfl, rfl⟩ := (field?_eq_some_iff isLabel).mp read
      exact .quoted quotation rest

/-- The two fields of a commit are read one after the other, each of which may be absent. -/
theorem commitFields_eq_iff
    {text : List Char}
    {id tag : Option String} :
    commitFields text = (id, tag) ↔
      ∃ middle rest,
        StartsWithField "id:" text id middle ∧ StartsWithField "tag:" middle tag rest := by
  have readTag : ∀ middle,
      (field? "tag:" middle).map (String.ofList ·.1) = tag ↔
        ∃ rest, StartsWithField "tag:" middle tag rest := by
    intro middle
    simp only [startsWithField_iff isLabel_tag]
    cases field? "tag:" middle with
    | none =>
        simp [eq_comm]
    | some read =>
        obtain ⟨content, rest⟩ := read
        simp [eq_comm]
  simp only [startsWithField_iff isLabel_id, exists_and_left, ← readTag]
  rw [commitFields]
  cases field? "id:" text with
  | none =>
      simp [eq_comm]
  | some read =>
      obtain ⟨content, rest⟩ := read
      simp [eq_comm]

/-- The value of a field is the text of a quotation. -/
theorem StartsWithField.exists_quotation
    {label value : String}
    {text rest : List Char}
    (starts : StartsWithField label text (some value) rest) :
    ∃ quotation : Quotation, value = quotation.text := by
  cases starts with
  | quoted quotation =>
      exact ⟨quotation, rfl⟩

namespace Directive

/-- A commit is read exactly from the lines that start with its keyword. -/
theorem ofLine_eq_commit_iff
    {index number : Int}
    {line : List Char}
    {id tag : Option String} :
    ofLine index line = .commit number id tag ↔
      number = index ∧
        ∃ text, line = "commit".toList ++ text ∧ commitFields text = (id, tag) := by
  constructor
  · intro read
    have form := form_ofLine index line
    generalize ofLine index line = directive at form read
    cases form with
    | commit text written =>
        cases read
        exact ⟨rfl, text, written, rfl⟩
    | named verb =>
        cases verb <;> contradiction
    | unread =>
        contradiction
  · rintro ⟨rfl, text, rfl, fields⟩
    rw [ofLine_of_commit, fields]

/-- What a commit quotes was written as a quotation. -/
theorem exists_quotation_of_ofLine
    {index number : Int}
    {line : List Char}
    {id tag : Option String}
    (read : ofLine index line = .commit number id tag) :
    ∀ value ∈ id.toList ++ tag.toList, ∃ quotation : Quotation, value = quotation.text := by
  obtain ⟨-, text, -, fields⟩ := ofLine_eq_commit_iff.mp read
  obtain ⟨middle, rest, readId, readTag⟩ := commitFields_eq_iff.mp fields
  intro value member
  rcases List.mem_append.mp member with isId | isTag
  · rw [Option.mem_toList.mp isId] at readId
    exact readId.exists_quotation
  · rw [Option.mem_toList.mp isTag] at readTag
    exact readTag.exists_quotation

/--
Commits are read by a grammar.

Exactly the lines that start with the keyword are commits. The text behind the keyword starts with
the identifier or has none, and what is then left starts with the tag or has none. A quotation is
cut off in one way only, it is neither empty nor holds a quote, and a line that was written with
two quotations is read back as their contents.
-/
theorem commits_are_read_by_grammar (index : Int) :
    (∀ line,
      (∃ number id tag, ofLine index line = .commit number id tag) ↔ "commit".toList <+: line) ∧
    (∀ text number id tag,
      ofLine index ("commit".toList ++ text) = .commit number id tag ↔
        number = index ∧
          ∃ middle rest,
            StartsWithField "id:" text id middle ∧ StartsWithField "tag:" middle tag rest) ∧
    (∀ label ∈ ["id:", "tag:"],
      ∀ (first second : Quotation) (firstRest secondRest : List Char),
        first.write label ++ firstRest = second.write label ++ secondRest →
          first = second ∧ firstRest = secondRest) ∧
    (∀ line number id tag,
      ofLine index line = .commit number id tag →
        ∀ value ∈ id.toList ++ tag.toList, value ≠ "" ∧ '"' ∉ value.toList) ∧
    ∀ (id tag : Quotation) (tail : List Char),
      ofLine index ("commit".toList ++ (id.write "id:" ++ (tag.write "tag:" ++ tail))) =
        .commit index (some id.text) (some tag.text) := by
  have grammar : ∀ text number id tag,
      ofLine index ("commit".toList ++ text) = .commit number id tag ↔
        number = index ∧
          ∃ middle rest,
            StartsWithField "id:" text id middle ∧ StartsWithField "tag:" middle tag rest := by
    intro text number id tag
    rw [ofLine_eq_commit_iff, ← commitFields_eq_iff]
    refine and_congr_right fun _ => ⟨?_, fun fields => ⟨text, rfl, fields⟩⟩
    rintro ⟨other, same, fields⟩
    rwa [List.append_cancel_left same]
  refine ⟨fun line => ⟨?starts, ?commits⟩, grammar, ?unique, ?values, fun id tag tail => ?written⟩
  case starts =>
    rintro ⟨number, id, tag, read⟩
    obtain ⟨-, text, rfl, -⟩ := ofLine_eq_commit_iff.mp read
    exact List.prefix_append _ _
  case commits =>
    rintro ⟨text, rfl⟩
    exact ⟨index, _, _, ofLine_of_commit index text⟩
  case unique =>
    intro label isListed first second firstRest secondRest same
    have isLabel : IsLabel label := by
      rcases List.mem_pair.mp isListed with rfl | rfl
      · exact isLabel_id
      · exact isLabel_tag
    exact Quotation.write_append_inj isLabel same
  case values =>
    intro line number id tag read value member
    obtain ⟨quotation, rfl⟩ := exists_quotation_of_ofLine read value member
    exact ⟨quotation.text_ne_empty, quotation.quote_not_mem_text⟩
  case written =>
    exact (grammar _ _ _ _).mpr ⟨rfl, _, _, .quoted id _, .quoted tag tail⟩

/-- A tag in front of an identifier is read, and the identifier is not. -/
example : ofLine 0 "commit tag:\"v2\" id:\"X\"".toList = .commit 0 none (some "v2") := by
  decide

end Directive

end GitLanes
