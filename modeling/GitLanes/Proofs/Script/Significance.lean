import GitLanes.Proofs.Script.Reading
import GitLanes.Proofs.Text.Lines

namespace GitLanes

/-!
# Significant lines

Two sources with a newline between them have the significant lines of both. A
significant line is trimmed, has something to say and is neither a comment nor a
header, and none of this changes when it is read again. So the significant lines
of a source, joined by newlines, are all significant, and say the same script.
-/

/-- What is true of every line that becomes a directive. -/
structure IsSignificant (line : List Char) : Prop where
  nonempty : line ≠ []
  oneLine : '\n' ∉ line
  solidFront : ∀ first ∈ line.head?, isBlank first = false
  solidBack : ∀ last ∈ line.getLast?, isBlank last = false
  noComment : ¬ "%%".toList <+: line
  noHeader : ¬ "gitGraph".toList <+: line

theorem isSignificant_of_mem
    {source line : List Char}
    (member : line ∈ significantLines source) :
    IsSignificant line := by
  obtain ⟨isTrimmed, counts⟩ := List.mem_filter.mp member
  obtain ⟨whole, isLine, rfl⟩ := List.mem_map.mp isTrimmed
  simp only [Bool.and_eq_true, Bool.not_eq_true', ← Bool.not_eq_true, List.isEmpty_iff, isComment,
    isHeader, List.isPrefixOf_iff_prefix] at counts
  obtain ⟨⟨nonempty, noComment⟩, noHeader⟩ := counts
  exact {
    nonempty
    oneLine := fun isIn => newline_not_mem_of_mem_linesOf isLine ((trim_sublist whole).subset isIn)
    solidFront := fun _ starts => isBlank_head_trim starts
    solidBack := fun _ ends => isBlank_getLast_trim ends
    noComment
    noHeader }

/-- A significant line is trimmed, and it counts. -/
theorem IsSignificant.counts
    {line : List Char}
    (significant : IsSignificant line) :
    trim line = line ∧ (!line.isEmpty && !isComment line && !isHeader line) = true := by
  refine ⟨trim_eq_self significant.solidFront significant.solidBack, ?_⟩
  simp only [Bool.and_eq_true, Bool.not_eq_true', ← Bool.not_eq_true, List.isEmpty_iff, isComment,
    isHeader, List.isPrefixOf_iff_prefix]
  exact ⟨⟨significant.nonempty, significant.noComment⟩, significant.noHeader⟩

/-- The significant lines of two sources are those of the first, then those of the second. -/
theorem significantLines_append
    (first second : List Char) :
    significantLines (first ++ '\n' :: second) =
      significantLines first ++ significantLines second := by
  rw [significantLines, linesOf_append, List.map_append, List.filter_append]
  rfl

/-- Significant lines that are joined by newlines are significant again. -/
theorem significantLines_intercalate
    {lines : List (List Char)}
    (significant : ∀ line ∈ lines, IsSignificant line) :
    significantLines (['\n'].intercalate lines) = lines := by
  by_cases empty : lines = []
  · rw [empty]
    decide
  · have trimmed : lines.map trim = lines :=
      (List.map_congr_left fun line member => (significant line member).counts.1).trans
        (List.map_id lines)
    rw [significantLines, linesOf_intercalate (fun line member => (significant line member).oneLine)
      empty, trimmed]
    exact List.filter_eq_self.mpr fun line member => (significant line member).counts.2

/--
The significant lines of two sources that a newline joins are those of the one
and then those of the other. Every significant line is a single line, is not
empty, neither starts nor ends with a blank, and is neither a comment nor a
header. Joined by newlines, the significant lines of a source are its
significant lines again, so they say the same script, and each directive of it
carries its position as its index.
-/
theorem significant_lines_read_the_same_again :
    (∀ first second : String,
      significantLines (first ++ "\n" ++ second).toList =
        significantLines first.toList ++ significantLines second.toList) ∧
      ∀ source : String,
        let lines := significantLines source.toList
        let rejoined := String.intercalate "\n" (lines.map String.ofList)
        significantLines rejoined.toList = lines ∧
          Script.ofLines rejoined.toList = Script.ofLines source.toList ∧
          (∀ (position : Nat) (directive : Directive),
            (Script.ofLines rejoined.toList).directives[position]? = some directive →
              directive.index = position) ∧
          ∀ line ∈ lines, IsSignificant line := by
  refine ⟨?append, ?rejoin⟩
  case append =>
    intro first second
    rw [String.toList_append, String.toList_append, List.append_assoc]
    exact significantLines_append first.toList second.toList
  case rejoin =>
    intro source lines rejoined
    have significant : ∀ line ∈ lines, IsSignificant line := fun line => isSignificant_of_mem
    have spelled : rejoined.toList = ['\n'].intercalate lines := by
      rw [String.toList_intercalate, List.map_map]
      simp
    have same : significantLines rejoined.toList = lines := by
      rw [spelled]
      exact significantLines_intercalate significant
    refine ⟨same, ?_, ?_, significant⟩
    · rw [Script.ofLines, same]
      rfl
    · intro position directive found
      obtain ⟨line, rfl⟩ := Script.getElem?_ofLines found
      exact Directive.index_ofLine position line

end GitLanes
