import GitLanes.Proofs.Drawing.Cells

namespace GitLanes

/-!
# Indentation of a document

An indented document is the compact one with a line break and spaces before its
tags. No text of a document can add a line break of its own, since all that its
attributes hold is written without one. So taking away every line break with the
spaces behind it leaves the compact document.
-/

/-- A text without its newlines and the spaces that directly follow them. -/
def withoutIndentation : List Char → List Char
  | [] => []
  | '\n' :: rest => withoutIndentation (rest.dropWhile (· == ' '))
  | character :: rest => character :: withoutIndentation rest
termination_by text => text.length
decreasing_by
  · exact Nat.lt_succ_of_le (List.length_dropWhile_le _ _)
  · exact Nat.lt_succ_self _

/-- A piece without newlines has no indentation to lose. -/
theorem withoutIndentation_append
    {front : List Char}
    (unbroken : '\n' ∉ front)
    (rest : List Char) :
    withoutIndentation (front ++ rest) = front ++ withoutIndentation rest := by
  induction front with
  | nil =>
      rfl
  | cons character others inductionHypothesis =>
      rw [List.mem_cons, not_or] at unbroken
      rw [List.cons_append, withoutIndentation, inductionHypothesis unbroken.2, List.cons_append]
      exact fun newline => unbroken.1 newline.symm

/-- A gap before something solid is all indentation. -/
theorem withoutIndentation_indentGap
    (depth : Nat)
    {rest : List Char}
    (solid : ∀ next ∈ rest.head?, (next == ' ') = false) :
    withoutIndentation (Element.indentGap depth ++ rest) = withoutIndentation rest := by
  have spaces : ∀ character ∈ List.replicate (2 * depth) ' ', (character == ' ') = true := by
    intro character member
    rw [(List.mem_replicate.mp member).2]
    rfl
  rw [Element.indentGap, List.cons_append, withoutIndentation, dropWhile_run spaces solid]

namespace Element

theorem newline_not_mem_name
    {name : String}
    (isNamed : Markup.isName name.toList = true) :
    '\n' ∉ name.toList := by
  intro member
  have isPart := Markup.isNamePart_of_isName isNamed '\n' member
  contradiction

/-- A written attribute holds no newline, since those of its value are escaped. -/
theorem newline_not_mem_writeAttribute
    {named : String × String}
    (isNamed : Markup.isName named.1.toList = true) :
    '\n' ∉ writeAttribute named := by
  have inValue : '\n' ∉ named.2.toList.flatMap escape := by
    rw [List.mem_flatMap]
    rintro ⟨character, -, member⟩
    exact Markup.not_mem_escape (by decide) character member
  simp [writeAttribute, newline_not_mem_name isNamed, inValue]

/-- The start of a written element holds no newline. -/
theorem newline_not_mem_writeOpening
    {tag : String}
    (isNamed : Markup.isName tag.toList = true)
    {attributes : List (String × String)}
    (areNamed : areNames (attributes.map Prod.fst) = true) :
    '\n' ∉ writeOpening tag attributes := by
  simp only [areNames, Bool.and_eq_true, List.all_eq_true, List.forall_mem_map] at areNamed
  have inAttributes : '\n' ∉ attributes.flatMap writeAttribute := by
    rw [List.mem_flatMap]
    rintro ⟨named, isAttribute, member⟩
    exact newline_not_mem_writeAttribute (areNamed.1 named isAttribute) member
  simp [writeOpening, newline_not_mem_name isNamed, inAttributes]

theorem newline_not_mem_writeClosing
    {tag : String}
    (isNamed : Markup.isName tag.toList = true) :
    '\n' ∉ writeClosing tag := by
  simp [writeClosing, newline_not_mem_name isNamed]

/-- What is written for an element starts with its tag. -/
theorem head?_write_append
    (gap : Nat → List Char)
    (depth : Nat)
    (element : Element)
    (rest : List Char) :
    (element.write gap depth ++ rest).head? = some '<' := by
  cases element with
  | mk tag attributes children =>
      cases children <;> rw [write] <;> rfl

/-- An element with others inside is its start, these others, a gap and its end. -/
theorem write_cons_append
    (gap : Nat → List Char)
    (depth : Nat)
    (tag : String)
    (attributes : List (String × String))
    (child : Element)
    (children : List Element)
    (rest : List Char) :
    write gap depth (.mk tag attributes (child :: children)) ++ rest =
      (writeOpening tag attributes ++ ['>']) ++
        (writeAll gap (depth + 1) (child :: children) ++
          (gap depth ++ (writeClosing tag ++ rest))) := by
  simp [write]

theorem writeAll_cons_append
    (gap : Nat → List Char)
    (depth : Nat)
    (child : Element)
    (children : List Element)
    (rest : List Char) :
    writeAll gap depth (child :: children) ++ rest =
      gap depth ++ (write gap depth child ++ (writeAll gap depth children ++ rest)) := by
  simp [writeAll]

theorem noGap_append
    (depth : Nat)
    (rest : List Char) :
    noGap depth ++ rest = rest :=
  rfl

mutual

/-- Without its indentation an element is as it is written without any. -/
theorem withoutIndentation_write
    (depth : Nat)
    (rest : List Char) :
    ∀ element : Element,
      element.isWellNamed = true →
        withoutIndentation (element.write indentGap depth ++ rest) =
          element.write noGap depth ++ withoutIndentation rest
  | .mk tag attributes [], wellNamed => by
      simp only [isWellNamed, Bool.and_eq_true] at wellNamed
      have unbroken : '\n' ∉ writeOpening tag attributes ++ " />".toList := by
        rw [List.mem_append, not_or]
        exact ⟨newline_not_mem_writeOpening wellNamed.1.1 wellNamed.1.2, by decide⟩
      rw [write, write, withoutIndentation_append unbroken]
  | .mk tag attributes (child :: children), wellNamed => by
      simp only [isWellNamed, Bool.and_eq_true] at wellNamed
      have opening : '\n' ∉ writeOpening tag attributes ++ ['>'] := by
        rw [List.mem_append, not_or]
        exact ⟨newline_not_mem_writeOpening wellNamed.1.1 wellNamed.1.2, by decide⟩
      have starts : ∀ next ∈ (writeClosing tag ++ rest).head?, (next == ' ') = false := by
        intro next isNext
        cases isNext
        decide
      have inner :=
        withoutIndentation_writeAll (depth + 1) (indentGap depth ++ (writeClosing tag ++ rest))
          (child :: children) wellNamed.2
      rw [write_cons_append, withoutIndentation_append opening, inner,
        withoutIndentation_indentGap depth starts,
        withoutIndentation_append (newline_not_mem_writeClosing wellNamed.1.1),
        write_cons_append, noGap_append]

/-- Without their indentation elements are as they are written without any. -/
theorem withoutIndentation_writeAll
    (depth : Nat)
    (rest : List Char) :
    ∀ elements : List Element,
      areWellNamed elements = true →
        withoutIndentation (writeAll indentGap depth elements ++ rest) =
          writeAll noGap depth elements ++ withoutIndentation rest
  | [], _ =>
      rfl
  | child :: children, wellNamed => by
      simp only [areWellNamed, Bool.and_eq_true] at wellNamed
      have starts : ∀ next ∈
          (write indentGap depth child ++ (writeAll indentGap depth children ++ rest)).head?,
            (next == ' ') = false := by
        rw [head?_write_append]
        intro next isNext
        cases isNext
        decide
      rw [writeAll_cons_append, withoutIndentation_indentGap depth starts,
        withoutIndentation_write depth _ child wellNamed.1,
        withoutIndentation_writeAll depth rest children wellNamed.2, writeAll_cons_append,
        noGap_append]

end

/-- The compact form of an element is its pretty form without the indentation. -/
theorem withoutIndentation_pretty
    {element : Element}
    (wellNamed : element.isWellNamed = true) :
    withoutIndentation element.pretty = element.compact := by
  have stripped := withoutIndentation_write 0 [] element wellNamed
  rwa [List.append_nil, withoutIndentation, List.append_nil] at stripped

end Element

namespace History

/-- What the document of a history consists of does not depend on the indentation. -/
theorem document_pretty_eq
    (nodeSize : Quantity)
    (modified : Option String)
    (spacingY : Quantity)
    (now : String)
    (history : History) :
    history.document { nodeSize, modified, pretty := true } spacingY now =
      history.document { nodeSize, modified, pretty := false } spacingY now :=
  rfl

/--
Indentation is all in which a pretty document differs from the compact one.

Both are refused for the same fault, or both are written, and then the body of the pretty document
without its line breaks and the spaces that directly follow them is the body of the compact one,
whatever texts the history and the timestamp hold.
-/
theorem documents_differ_in_indentation
    (nodeSize : Quantity)
    (modified : Option String)
    (spacingY : Quantity)
    (now : String)
    (history : History) :
    (∃ fault,
      history.render { nodeSize, modified, pretty := true } spacingY now = .error fault ∧
        history.render { nodeSize, modified, pretty := false } spacingY now = .error fault) ∨
    ∃ prettyBody compactBody,
      history.render { nodeSize, modified, pretty := true } spacingY now =
          .ok ("<?xml version=\"1.0\" encoding=\"UTF-8\"?>\n" ++ String.ofList prettyBody ++ "\n") ∧
        history.render { nodeSize, modified, pretty := false } spacingY now =
            .ok ("<?xml version=\"1.0\" encoding=\"UTF-8\"?>\n" ++ String.ofList compactBody ++
              "\n") ∧
          withoutIndentation prettyBody = compactBody := by
  rw [render, render, document_pretty_eq]
  cases drawn : history.document { nodeSize, modified, pretty := false } spacingY now with
  | error fault =>
      exact Or.inl ⟨fault, rfl, rfl⟩
  | ok document =>
      refine Or.inr ⟨document.pretty, document.compact, rfl, rfl, ?_⟩
      exact Element.withoutIndentation_pretty (isWellNamed_document drawn)

end History

end GitLanes
