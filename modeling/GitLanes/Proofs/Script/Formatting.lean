import GitLanes.Conversion
import GitLanes.Proofs.Script.Reading
import GitLanes.Proofs.Text.Lines
import Mathlib.Logic.Relation

namespace GitLanes

/-!
# Formatting of a source

Blank lines, comments, the blanks around a line and the way in which lines end
are nobody's business. What a source is taken for, read as, laid out as and drawn
as depends on its spoken lines alone, and none of these edits touches them.
-/

/-- Whether a line says nothing: it is blank, or a comment behind some blanks. -/
def IsSilent (line : List Char) : Prop :=
  (∀ character ∈ line, isBlank character = true) ∨
    ∃ indentation remark,
      line = indentation ++ '%' :: '%' :: remark ∧
        ∀ character ∈ indentation, isBlank character = true

/-- One edit of the formatting of a text. -/
inductive FormatEdit : List Char → List Char → Prop
  /-- A silent line is put between two lines, before all or behind all. -/
  | insertLine
      {text edited line : List Char}
      {before after : List (List Char)}
      (silent : IsSilent line)
      (lines : linesOf text = before ++ after)
      (editedLines : linesOf edited = before ++ line :: after) :
      FormatEdit text edited
  /-- Other blanks are put around what a line says. -/
  | padLine
      {text edited leading trailing otherLeading otherTrailing core : List Char}
      {before after : List (List Char)}
      (blanks :
        ∀ character ∈ leading ++ trailing ++ otherLeading ++ otherTrailing,
          isBlank character = true)
      (lines : linesOf text = before ++ (leading ++ core ++ trailing) :: after)
      (editedLines :
        linesOf edited = before ++ (otherLeading ++ core ++ otherTrailing) :: after) :
      FormatEdit text edited
  /-- A carriage return is put before every newline. -/
  | returnLines
      (text : List Char) :
      FormatEdit text (withReturns text)

/-- Texts that edits of the formatting, done or undone, turn into each other. -/
def Reformatted : List Char → List Char → Prop :=
  Relation.EqvGen FormatEdit

/-- Sources of which everything is made alike, whatever the settings and the rendering. -/
structure ReadAlike (left right : String) : Prop where
  kinds : diagramKind left.toList = diagramKind right.toList
  scripts : Script.ofSource left = Script.ofSource right
  histories :
    ∀ (spacingX spacingY : Quantity) (colors : List String),
      ((Palette.ofList colors).bind fun palette =>
          layoutSource ⟨spacingX, spacingY, palette⟩ left) =
        (Palette.ofList colors).bind fun palette =>
          layoutSource ⟨spacingX, spacingY, palette⟩ right
  drawings :
    ∀ (spacingX spacingY : Quantity) (colors : List String) (rendering : Rendering) (now : String),
      ((Palette.ofList colors).bind fun palette =>
          convert ⟨spacingX, spacingY, palette⟩ rendering now left) =
        (Palette.ofList colors).bind fun palette =>
          convert ⟨spacingX, spacingY, palette⟩ rendering now right

/-- A line that is blank or a comment says nothing. -/
theorem IsSilent.unspoken
    {line : List Char}
    (silent : IsSilent line) :
    (!(trim line).isEmpty && !isComment (trim line)) = false := by
  rcases silent with blank | ⟨indentation, remark, rfl, blank⟩
  · rw [trim_eq_nil blank]
    rfl
  · have solid : ∀ character ∈ ['%', '%'], isBlank character = false := by
      simpa using show isBlank '%' = false by decide
    have marked : ['%', '%'] <+: trim ('%' :: '%' :: remark) :=
      prefix_trim solid remark
    have nothing : ∀ character ∈ ([] : List Char), isBlank character = true := nofun
    have trimmed := trim_append_blanks blank nothing ('%' :: '%' :: remark)
    rw [List.append_nil] at trimmed
    rw [trimmed, isComment, List.isPrefixOf_iff_prefix.mpr marked, Bool.not_true, Bool.and_false]

/-- An edit of the formatting leaves the spoken lines alone. -/
theorem FormatEdit.spokenLines_eq
    {text edited : List Char}
    (edit : FormatEdit text edited) :
    spokenLines edited = spokenLines text := by
  cases edit with
  | insertLine silent lines editedLines =>
      rw [spokenLines, spokenLines, lines, editedLines, List.map_append, List.map_append,
        List.map_cons, List.filter_append, List.filter_append, List.filter_cons, silent.unspoken]
      rfl
  | padLine blanks lines editedLines =>
      simp only [List.forall_mem_append] at blanks
      obtain ⟨⟨⟨leading, trailing⟩, otherLeading⟩, otherTrailing⟩ := blanks
      rw [spokenLines, spokenLines, lines, editedLines, List.map_append, List.map_append,
        List.map_cons, List.map_cons, trim_append_blanks leading trailing,
        trim_append_blanks otherLeading otherTrailing]
  | returnLines =>
      rw [spokenLines, spokenLines, map_trim_linesOf_withReturns]

/-- Any number of edits of the formatting leave the spoken lines alone. -/
theorem Reformatted.spokenLines_eq
    {text edited : List Char}
    (reformatted : Reformatted text edited) :
    spokenLines edited = spokenLines text := by
  induction reformatted with
  | rel text edited edit =>
      exact edit.spokenLines_eq
  | refl text =>
      rfl
  | symm text edited _ inductionHypothesis =>
      exact inductionHypothesis.symm
  | trans text between edited _ _ firstHypothesis secondHypothesis =>
      exact secondHypothesis.trans firstHypothesis

/-- Sources with the same spoken lines are read alike. -/
theorem ofSource_eq_of_spokenLines
    {left right : String}
    (alike : spokenLines left.toList = spokenLines right.toList) :
    Script.ofSource left = Script.ofSource right := by
  simp only [Script.ofSource, Script.ofLines, diagramKind_eq, significantLines_eq, alike]

/-- The spoken lines of a source decide everything that is made of it. -/
theorem ReadAlike.of_spokenLines
    {left right : String}
    (alike : spokenLines left.toList = spokenLines right.toList) :
    ReadAlike left right where
  kinds := by
    rw [diagramKind_eq, diagramKind_eq, alike]
  scripts := ofSource_eq_of_spokenLines alike
  histories := by
    intro spacingX spacingY colors
    simp only [layoutSource, ofSource_eq_of_spokenLines alike]
  drawings := by
    intro spacingX spacingY colors rendering now
    simp only [convert, layoutSource, ofSource_eq_of_spokenLines alike]

/--
Sources with the same spoken lines are taken for the same kind of diagram and
give the same script, the same layout and the same drawing, or fail alike. They
still do if one of them is reformatted.
-/
theorem formatting_is_invisible
    {left right : String}
    (alike : spokenLines left.toList = spokenLines right.toList) :
    ReadAlike left right ∧
      ∀ edited : String, Reformatted right.toList edited.toList → ReadAlike left edited := by
  refine ⟨.of_spokenLines alike, ?_⟩
  intro edited reformatted
  exact .of_spokenLines (alike.trans reformatted.spokenLines_eq.symm)

theorem formatting_is_invisible_below_a_comment :
    spokenLines "gitGraph\ncommit".toList = spokenLines "gitGraph\n\n\tcommit".toList ∧
      Reformatted "gitGraph\n\n\tcommit".toList " %% note\ngitGraph\n\n\tcommit".toList ∧
        ReadAlike "gitGraph\ncommit" " %% note\ngitGraph\n\n\tcommit" := by
  have alike : spokenLines "gitGraph\ncommit".toList =
      spokenLines "gitGraph\n\n\tcommit".toList := by
    decide
  have silent : IsSilent " %% note".toList :=
    Or.inr ⟨[' '], " note".toList, rfl, by simpa using show isBlank ' ' = true by decide⟩
  have lines : linesOf "gitGraph\n\n\tcommit".toList =
      [] ++ ["gitGraph".toList, [], "\tcommit".toList] := by
    decide
  have editedLines : linesOf " %% note\ngitGraph\n\n\tcommit".toList =
      [] ++ " %% note".toList :: ["gitGraph".toList, [], "\tcommit".toList] := by
    decide
  have reformatted :
      Reformatted "gitGraph\n\n\tcommit".toList " %% note\ngitGraph\n\n\tcommit".toList :=
    .rel _ _ (.insertLine silent lines editedLines)
  exact ⟨alike, reformatted, (formatting_is_invisible alike).2 _ reformatted⟩

end GitLanes
