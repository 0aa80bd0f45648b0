import GitLanes.Proofs.Script.Quotations
import GitLanes.Script.Source

namespace GitLanes

/-!
# Sources and their scripts

The lines of a source are gone through twice, once for the kind of diagram and
once for the directives, and both times the spoken lines are all that counts. A
source has a script exactly if it announces a git graph, and the script is that
of its significant lines. Its directives are numbered by their positions, and no
commit quotes an empty identifier.
-/

/-- The trimmed lines that are neither blank nor comments. -/
def spokenLines (source : List Char) : List (List Char) :=
  ((linesOf source).map trim).filter fun line => !line.isEmpty && !isComment line

/-- The kind of a diagram is announced by its first line that is neither blank nor a comment. -/
theorem announcedKind_eq (lines : List (List Char)) :
    announcedKind lines =
      (((lines.map trim).find? fun line => !line.isEmpty && !isComment line).bind fun line =>
        DiagramKind.ofKeyword? (openingWord line)).getD .gitGraph := by
  induction lines with
  | nil =>
      rfl
  | cons line rest inductionHypothesis =>
      rw [announcedKind, List.map_cons, List.find?_cons, ← Bool.not_or]
      cases skipped : (trim line).isEmpty || isComment (trim line) with
      | true =>
          exact inductionHypothesis
      | false =>
          rfl

/-- The first spoken line announces the kind of diagram. -/
theorem diagramKind_eq (source : List Char) :
    diagramKind source =
      ((spokenLines source).head?.bind fun line =>
        DiagramKind.ofKeyword? (openingWord line)).getD .gitGraph := by
  rw [diagramKind, announcedKind_eq, spokenLines, List.head?_filter]

/-- The spoken lines that are no headers become directives. -/
theorem significantLines_eq (source : List Char) :
    significantLines source = (spokenLines source).filter fun line => !isHeader line := by
  rw [significantLines, spokenLines, List.filter_filter]
  exact List.filter_congr fun line _ => Bool.and_comm _ _

namespace Directive

/-- The identifier that a commit quotes. -/
def quotedId? : Directive → Option String
  | .commit _ id _ => id
  | _ => none

/-- An identifier that is read from a line is not empty. -/
theorem quotedId?_ofLine_ne_empty
    {index : Int}
    {line : List Char}
    {id : String}
    (quotes : (ofLine index line).quotedId? = some id) :
    id ≠ "" := by
  cases read : ofLine index line with
  | commit number quoted tag =>
      rw [read] at quotes
      obtain rfl : quoted = some id := quotes
      obtain ⟨quotation, rfl⟩ := exists_quotation_of_ofLine read id List.mem_cons_self
      exact quotation.text_ne_empty
  | _ =>
      rw [read] at quotes
      contradiction

end Directive

namespace Script

/-- A source is read exactly if it announces no foreign diagram. -/
theorem ofSource_eq_ok_iff
    {source : String}
    {script : Script} :
    ofSource source = .ok script ↔
      diagramKind source.toList = .gitGraph ∧ script = ofLines source.toList := by
  unfold ofSource
  cases diagramKind source.toList <;> simp [eq_comm]

theorem ofSource_eq_error
    {source : String}
    (foreign : diagramKind source.toList ≠ .gitGraph) :
    ofSource source = .error (.unsupportedDiagram (diagramKind source.toList)) := by
  unfold ofSource
  cases announced : diagramKind source.toList with
  | gitGraph =>
      contradiction
  | _ =>
      rfl

/-- A directive is what the line at its position says. -/
theorem getElem?_ofLines
    {source : List Char}
    {position : Nat}
    {directive : Directive}
    (found : (ofLines source).directives[position]? = some directive) :
    ∃ line, directive = .ofLine position line := by
  rw [ofLines, List.getElem?_mapIdx] at found
  obtain ⟨line, -, rfl⟩ := Option.map_eq_some_iff.mp found
  exact ⟨line, rfl⟩

/-- No two directives of a source have the same index. -/
theorem pairwise_index_ofLines (source : List Char) :
    (ofLines source).directives.Pairwise fun first second => first.index ≠ second.index := by
  rw [List.pairwise_iff_getElem]
  intro first second inRange alsoInRange inFront same
  obtain ⟨firstLine, firstReads⟩ := getElem?_ofLines (List.getElem?_eq_getElem inRange)
  obtain ⟨secondLine, secondReads⟩ := getElem?_ofLines (List.getElem?_eq_getElem alsoInRange)
  rw [firstReads, secondReads, Directive.index_ofLine, Directive.index_ofLine] at same
  omega

/-- An identifier that is quoted is not empty. -/
theorem quotedId?_ne_empty
    {source : List Char}
    {directive : Directive}
    (member : directive ∈ (ofLines source).directives)
    {id : String}
    (quotes : directive.quotedId? = some id) :
    id ≠ "" := by
  obtain ⟨position, found⟩ := List.mem_iff_getElem?.mp member
  obtain ⟨line, rfl⟩ := getElem?_ofLines found
  exact Directive.quotedId?_ofLine_ne_empty quotes

end Script

end GitLanes
