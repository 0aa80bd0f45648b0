import GitLanes.Text.Blank
import GitLanes.Text.Lines
import Mathlib.Data.List.Forall2
import Mathlib.Data.List.TakeWhile

namespace GitLanes

/-!
# Lines and the blanks around them

Trimming forgets how many blanks stand at the ends of a text and which ones. A
carriage return is a blank, so putting one before every newline changes no
trimmed line.
-/

/-- Text in which a carriage return stands before every newline. -/
def withReturns (text : List Char) : List Char :=
  text.flatMap fun character => if character = '\n' then ['\r', '\n'] else [character]

/-- Trimming is blind to blanks at the two ends. -/
theorem trim_append_blanks
    {leading trailing : List Char}
    (blankLeading : ∀ character ∈ leading, isBlank character = true)
    (blankTrailing : ∀ character ∈ trailing, isBlank character = true)
    (text : List Char) :
    trim (leading ++ text ++ trailing) = trim text := by
  have front : (leading ++ text ++ trailing).dropWhile isBlank =
      (text ++ trailing).dropWhile isBlank := by
    rw [List.append_assoc, List.dropWhile_append_of_pos blankLeading]
  rw [trim, trim, front, List.dropWhile_append]
  by_cases allBlank : text.dropWhile isBlank = []
  · have nothing : trailing.dropWhile isBlank = [] :=
      List.dropWhile_eq_nil_iff.mpr blankTrailing
    rw [allBlank, nothing]
    rfl
  · have solid : ¬ (text.dropWhile isBlank).isEmpty = true := by
      rwa [List.isEmpty_iff]
    have back : ∀ character ∈ trailing.reverse, isBlank character = true := by
      simpa using blankTrailing
    rw [if_neg solid, List.reverse_append, List.dropWhile_append_of_pos back]

theorem trim_append_trailing
    {trailing : List Char}
    (blank : ∀ character ∈ trailing, isBlank character = true)
    (text : List Char) :
    trim (text ++ trailing) = trim text := by
  have nothing : ∀ character ∈ ([] : List Char), isBlank character = true := nofun
  exact trim_append_blanks nothing blank text

/-- Trimming only takes characters away. -/
theorem trim_sublist (text : List Char) :
    (trim text).Sublist text := by
  have backTrimmed := (List.dropWhile_sublist isBlank (l := (text.dropWhile isBlank).reverse)).reverse
  rw [List.reverse_reverse] at backTrimmed
  exact backTrimmed.trans (List.dropWhile_sublist isBlank)

theorem trim_eq_nil
    {text : List Char}
    (blank : ∀ character ∈ text, isBlank character = true) :
    trim text = [] :=
  trim_append_trailing blank []

/-- What a text starts with stays its start when it is trimmed, if nothing in it is blank. -/
theorem prefix_trim
    {front : List Char}
    (solid : ∀ character ∈ front, isBlank character = false)
    (text : List Char) :
    front <+: trim (front ++ text) := by
  have kept : ∀ characters : List Char,
      (∀ character ∈ characters, isBlank character = false) →
        characters.dropWhile isBlank = characters := by
    intro characters allSolid
    refine List.dropWhile_eq_self_iff.mpr fun inRange => ?_
    simpa using allSolid _ (List.getElem_mem inRange)
  have backKept := kept front.reverse (by simpa using solid)
  cases front with
  | nil =>
      exact List.nil_prefix
  | cons first rest =>
      have frontKept : (first :: rest ++ text).dropWhile isBlank = first :: rest ++ text := by
        simp [solid first List.mem_cons_self]
      rw [trim, frontKept, List.reverse_append, List.dropWhile_append]
      split
      · refine ⟨[], ?_⟩
        rw [backKept, List.reverse_reverse, List.append_nil]
      · rw [List.reverse_append, List.reverse_reverse]
        exact List.prefix_append _ _

theorem linesOf_cons
    (character : Char)
    (text : List Char) :
    linesOf (character :: text) =
      if character = '\n' then
        [] :: linesOf text
      else
        (linesOf text).modifyHead (character :: ·) := by
  simp only [linesOf, List.splitOn_eq_splitOnP, List.splitOnP_cons_eq_if_modifyHead, beq_iff_eq]

/-- A newline between two texts keeps their lines apart. -/
theorem linesOf_append
    (first second : List Char) :
    linesOf (first ++ '\n' :: second) = linesOf first ++ linesOf second :=
  List.splitOn_append_cons_self first second

/-- There is no line end inside a line. -/
theorem newline_not_mem_of_mem_linesOf
    {text line : List Char}
    (member : line ∈ linesOf text) :
    '\n' ∉ line := by
  induction text generalizing line with
  | nil =>
      obtain rfl : line = [] := by simpa [linesOf] using member
      exact List.not_mem_nil
  | cons character rest inductionHypothesis =>
      rw [linesOf_cons] at member
      split at member
      · rcases List.mem_cons.mp member with rfl | later
        · exact List.not_mem_nil
        · exact inductionHypothesis later
      · rename_i noNewline
        generalize linesOf rest = lines at member inductionHypothesis
        cases lines with
        | nil =>
            cases member
        | cons first others =>
            rcases List.mem_cons.mp member with rfl | later
            · intro isIn
              rcases List.mem_cons.mp isIn with same | inFirst
              · exact noNewline same.symm
              · exact inductionHypothesis List.mem_cons_self inFirst
            · exact inductionHypothesis (List.mem_cons_of_mem _ later)

/-- Lines that are joined by newlines are found again. -/
theorem linesOf_intercalate
    {lines : List (List Char)}
    (oneLine : ∀ line ∈ lines, '\n' ∉ line)
    (nonempty : lines ≠ []) :
    linesOf (['\n'].intercalate lines) = lines :=
  List.splitOn_intercalate '\n' oneLine nonempty

/-- Every line gains a carriage return, but for the last one. -/
theorem lines_withReturns (text : List Char) :
    List.Forall₂ (fun plain returned => returned = plain ∨ returned = plain ++ ['\r'])
      (linesOf text) (linesOf (withReturns text)) := by
  induction text with
  | nil =>
      exact .cons (Or.inl rfl) .nil
  | cons character rest inductionHypothesis =>
      by_cases newline : character = '\n'
      · subst newline
        have spelled : withReturns ('\n' :: rest) = '\r' :: '\n' :: withReturns rest := rfl
        rw [spelled, linesOf_cons, linesOf_cons, linesOf_cons]
        exact .cons (Or.inr rfl) inductionHypothesis
      · have spelled : withReturns (character :: rest) = character :: withReturns rest := by
          simp [withReturns, newline]
        rw [spelled, linesOf_cons, linesOf_cons, if_neg newline, if_neg newline]
        generalize linesOf rest = plainLines at inductionHypothesis
        generalize linesOf (withReturns rest) = returnedLines at inductionHypothesis
        cases inductionHypothesis with
        | nil =>
            exact .nil
        | cons first others =>
            refine .cons ?_ others
            rcases first with rfl | rfl
            · exact Or.inl rfl
            · exact Or.inr rfl

/-- The trimmed lines are the same with either kind of line end. -/
theorem map_trim_linesOf_withReturns (text : List Char) :
    (linesOf (withReturns text)).map trim = (linesOf text).map trim := by
  have returnIsBlank : ∀ character ∈ ['\r'], isBlank character = true :=
    List.all_eq_true.mp (by decide)
  have returned := lines_withReturns text
  generalize linesOf text = plainLines at returned
  generalize linesOf (withReturns text) = returnedLines at returned
  induction returned with
  | nil =>
      rfl
  | cons first others inductionHypothesis =>
      rw [List.map_cons, List.map_cons, inductionHypothesis]
      rcases first with rfl | rfl
      · rfl
      · rw [trim_append_trailing returnIsBlank]

/-- Folding line ends makes a text no longer. -/
theorem length_foldLineEnds_le (text : List Char) :
    (foldLineEnds text).length ≤ text.length := by
  fun_induction foldLineEnds text <;> simp <;> omega

/-- A text has at most one more line than characters. -/
theorem length_linesOf_le (text : List Char) :
    (linesOf text).length ≤ text.length + 1 := by
  induction text with
  | nil =>
      simp [linesOf]
  | cons character rest inductionHypothesis =>
      rw [linesOf_cons]
      split <;> simp <;> omega

end GitLanes
