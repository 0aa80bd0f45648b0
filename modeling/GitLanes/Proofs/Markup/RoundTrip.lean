import GitLanes.Proofs.Markup.Reader
import GitLanes.Proofs.Text.Runs

namespace GitLanes

/-!
# Reading what was written

A written element is read back as it was, whatever white space stands between
its tags and whatever its attributes hold, as long as its tags and attributes
have proper names. The text falls into the tags of the element one by one, and
the tags put the element together again.
-/

namespace Element

/-- Whether names are proper and no two of them are the same. -/
def areNames (names : List String) : Bool :=
  names.all (fun name => Markup.isName name.toList) && decide names.Nodup

mutual

/-- Whether an element and all elements inside it have proper names. -/
def isWellNamed : Element → Bool
  | .mk tag attributes children =>
      Markup.isName tag.toList && areNames (attributes.map Prod.fst) && areWellNamed children

/-- Whether elements and all elements inside them have proper names. -/
def areWellNamed : List Element → Bool
  | [] => true
  | child :: children => isWellNamed child && areWellNamed children

end

mutual

/-- The tags of an element. -/
def tags : Element → List Markup.Tag
  | .mk tag attributes [] => [.childless tag attributes]
  | .mk tag attributes (child :: children) =>
      .opening tag attributes :: (tagsOfAll (child :: children) ++ [.closing tag])

/-- The tags of elements that stand side by side. -/
def tagsOfAll : List Element → List Markup.Tag
  | [] => []
  | child :: children => tags child ++ tagsOfAll children

end

end Element

namespace Markup

/-- A character is decoded from what it is written as. -/
theorem decode?_escape_append
    (character : Char)
    (rest : List Char) :
    decode? (Element.escape character ++ rest) = (decode? rest).map (character :: ·) := by
  unfold Element.escape
  split
  case h_8 notAmp notLess notGreater notQuote notReturn notNewline notTab =>
    have unchanged : isSeparator character = true → character = ' ' := by
      simp only [isSeparator, List.contains_cons, List.contains_nil, Bool.or_eq_true,
        beq_iff_eq, Bool.or_false]
      rintro (isSpace | isTab | isNewline | isReturn)
      · exact isSpace
      · exact (notTab isTab).elim
      · exact (notNewline isNewline).elim
      · exact (notReturn isReturn).elim
    rw [List.singleton_append, decode?.eq_def]
    split
    case h_9 =>
      rename_i shape
      cases shape
      rw [if_neg (by simpa using ⟨notAmp, notLess⟩)]
      split
      · rename_i separates
        rw [unchanged separates]
      · rfl
    all_goals simp_all
  all_goals rfl

/-- A text is decoded from what it is written as. -/
theorem decode?_flatMap_escape (text : List Char) :
    decode? (text.flatMap Element.escape) = some text := by
  induction text with
  | nil =>
      rfl
  | cons character rest inductionHypothesis =>
      rw [List.flatMap_cons, decode?_escape_append, inductionHypothesis]
      rfl

/-- What a character is written as holds none of the marks that are written as references. -/
theorem not_mem_escape
    {mark : Char}
    (isMark : mark ∈ ['<', '>', '"', '\r', '\n', '\t'])
    (character : Char) :
    mark ∉ Element.escape character := by
  have unmarked : (Element.escape character).all fun written =>
      !(['<', '>', '"', '\r', '\n', '\t'].contains written) := by
    unfold Element.escape
    split
    case h_8 _ notLess notGreater notQuote notReturn notNewline notTab =>
      simpa using ⟨notLess, notGreater, notQuote, notReturn, notNewline, notTab⟩
    all_goals decide
  intro member
  have absent := List.all_eq_true.mp unmarked mark member
  rw [List.contains_iff_mem.mpr isMark] at absent
  contradiction

theorem isNamePart_of_isName
    {name : List Char}
    (isNamed : isName name = true) :
    ∀ character ∈ name, isNamePart character = true := by
  cases name with
  | nil =>
      simp
  | cons first rest =>
      simp only [isName, Bool.and_eq_true, List.all_eq_true] at isNamed
      intro character member
      rcases List.mem_cons.mp member with rfl | inRest
      · simp [isNamePart, isNamed.1]
      · exact isNamed.2 character inRest

/-- A name is read up to a character that cannot stand in one. -/
theorem readName?_append
    {name : String}
    (isNamed : isName name.toList = true)
    {rest : List Char}
    (ends : ∀ next ∈ rest.head?, isNamePart next = false) :
    readName? (name.toList ++ rest) = some (name, rest) := by
  have parts := isNamePart_of_isName isNamed
  rw [readName?, takeWhile_run parts ends, dropWhile_run parts ends, if_pos isNamed,
    String.ofList_toList]

/-- A value is read back from between the quotes. -/
theorem readValue?_append
    (value : String)
    (rest : List Char) :
    readValue? ('"' :: (value.toList.flatMap Element.escape ++ '"' :: rest)) =
      some (value, rest) := by
  have unquoted :
      ∀ character ∈ value.toList.flatMap Element.escape, (character != '"') = true := by
    intro character member
    obtain ⟨original, -, isWritten⟩ := List.mem_flatMap.mp member
    rw [bne_iff_ne]
    rintro rfl
    exact not_mem_escape (by decide) original isWritten
  simp only [readValue?, true_or, if_true]
  rw [List.dropWhile_append_of_pos unquoted, List.takeWhile_append_of_pos unquoted]
  simp [decode?_flatMap_escape]

/-- White space before a name can be skipped without losing any of the name. -/
theorem dropWhile_isSeparator_name
    {name : List Char}
    (isNamed : isName name = true)
    (rest : List Char) :
    (name ++ rest).dropWhile isSeparator = name ++ rest := by
  cases name with
  | nil =>
      cases isNamed
  | cons first others =>
      simp only [isName, Bool.and_eq_true] at isNamed
      have solid : isSeparator first = false := by
        rw [Bool.eq_false_iff]
        intro separates
        simp only [isSeparator, List.contains_cons, List.contains_nil, Bool.or_eq_true,
          beq_iff_eq, Bool.or_false] at separates
        rcases separates with rfl | rfl | rfl | rfl <;> exact absurd isNamed.1 (by decide)
      rw [List.cons_append, List.dropWhile_cons_of_neg (by simp [solid])]

/-- A written attribute is read back, whatever follows it. -/
theorem readAttribute?_append
    {named : String × String}
    (isNamed : isName named.1.toList = true)
    (rest : List Char) :
    readAttribute? (Element.writeAttribute named ++ rest) = some (named, rest) := by
  have written :
      Element.writeAttribute named ++ rest =
        ' ' :: (named.1.toList ++
          '=' :: '"' :: (named.2.toList.flatMap Element.escape ++ '"' :: rest)) := by
    simp [Element.writeAttribute]
  have afterSpace :
      afterBlanks? isSeparator (' ' :: (named.1.toList ++
          '=' :: '"' :: (named.2.toList.flatMap Element.escape ++ '"' :: rest))) =
        some (named.1.toList ++
          '=' :: '"' :: (named.2.toList.flatMap Element.escape ++ '"' :: rest)) := by
    rw [afterBlanks?, if_pos (by decide), dropWhile_isSeparator_name isNamed]
  rw [readAttribute?, written, afterSpace, Option.bind_eq_bind, Option.bind_some,
    readName?_append isNamed (by simp [isNamePart, isNameStart])]
  change (readValue?
      ('"' :: (named.2.toList.flatMap Element.escape ++ '"' :: rest))).bind
    (fun valued => some ((named.1, valued.1), valued.2)) = _
  rw [readValue?_append, Option.bind_some]

theorem readMany_of_none
    {α : Type}
    {item? : List Char → Option (α × List Char)}
    {text : List Char}
    (unread : item? text = none) :
    readMany item? text = ([], text) := by
  rw [readMany, unread]

/-- An item that takes something of a text is read before the others. -/
theorem readMany_of_some
    {α : Type}
    {item? : List Char → Option (α × List Char)}
    {text rest : List Char}
    {value : α}
    (found : item? text = some (value, rest))
    (taken : rest.length < text.length) :
    readMany item? text = (value :: (readMany item? rest).1, (readMany item? rest).2) := by
  rw [readMany, found]
  exact if_pos taken

theorem length_lt_append
    {taken rest : List Char}
    (something : 0 < taken.length) :
    rest.length < (taken ++ rest).length := by
  rw [List.length_append]
  omega

/-- Attributes are read up to where no further one starts. -/
theorem readMany_writeAttribute
    {attributes : List (String × String)}
    (areNamed : ∀ named ∈ attributes, isName named.1.toList = true)
    {rest : List Char}
    (ends : readAttribute? rest = none) :
    readMany readAttribute? (attributes.flatMap Element.writeAttribute ++ rest) =
      (attributes, rest) := by
  induction attributes with
  | nil =>
      exact readMany_of_none ends
  | cons named others inductionHypothesis =>
      have othersRead :=
        inductionHypothesis fun other member => areNamed other (List.mem_cons_of_mem _ member)
      rw [List.flatMap_cons, List.append_assoc,
        readMany_of_some (readAttribute?_append (areNamed named List.mem_cons_self) _)
          (length_lt_append (by simp [Element.writeAttribute])),
        othersRead]

/-! Tags that are read back, whatever follows them. -/

/-- The end of an element is read up to its bracket. -/
theorem readClosing?_append
    {tag : String}
    (isNamed : isName tag.toList = true)
    (rest : List Char) :
    readClosing? (tag.toList ++ '>' :: rest) = some (.closing tag, rest) := by
  rw [readClosing?, readName?_append isNamed (by simp [isNamePart, isNameStart])]
  rfl

/-- The start of an element is read up to its end. -/
theorem readOpening?_append
    {tag : String}
    (isNamed : isName tag.toList = true)
    {attributes : List (String × String)}
    (areNamed : Element.areNames (attributes.map Prod.fst) = true)
    {ending : List Char}
    (endsName : ∀ next ∈ ending.head?, isNamePart next = false)
    (endsAttributes : readAttribute? ending = none) :
    readOpening? (tag.toList ++ (attributes.flatMap Element.writeAttribute ++ ending)) =
      endOpening? tag attributes ending := by
  simp only [Element.areNames, Bool.and_eq_true, List.all_eq_true, List.forall_mem_map,
    decide_eq_true_eq] at areNamed
  have ends :
      ∀ next ∈ (attributes.flatMap Element.writeAttribute ++ ending).head?,
        isNamePart next = false := by
    cases attributes with
    | nil =>
        exact endsName
    | cons named others =>
        intro next isNext
        cases isNext
        decide
  rw [readOpening?, readName?_append isNamed ends]
  simp [readMany_writeAttribute areNamed.1 endsAttributes, areNamed.2]

/-- The next item of a text is a tag, after white space. -/
theorem readTag?_of_opening
    {blanks : List Char}
    (areBlank : ∀ character ∈ blanks, isSeparator character = true)
    {tag : String}
    (isNamed : isName tag.toList = true)
    (text : List Char) :
    readTag? (blanks ++ '<' :: (tag.toList ++ text)) = readOpening? (tag.toList ++ text) := by
  rw [readTag?, List.dropWhile_append_of_pos areBlank,
    List.dropWhile_cons_of_neg (by decide)]
  cases shape : tag.toList with
  | nil =>
      simp [shape, isName] at isNamed
  | cons first others =>
      have noSlash : first ≠ '/' := by
        rintro rfl
        simp [shape, isName, isNameStart] at isNamed
      rw [List.cons_append]
      split
      · rename_i same
        exact (noSlash (List.cons.inj (List.cons.inj same).2).1).elim
      · rename_i same
        rw [(List.cons.inj same).2]
      · rename_i otherwise
        exact (otherwise _ rfl).elim

/-- The start of a written element is read up to its ending, which says what kind of tag it is. -/
theorem readTag?_writeOpening
    {blanks : List Char}
    (areBlank : ∀ character ∈ blanks, isSeparator character = true)
    {tag : String}
    (isNamed : isName tag.toList = true)
    {attributes : List (String × String)}
    (areNamed : Element.areNames (attributes.map Prod.fst) = true)
    {ending : List Char}
    (endsName : ∀ next ∈ ending.head?, isNamePart next = false)
    (endsAttributes : readAttribute? ending = none) :
    readTag? (blanks ++ (Element.writeOpening tag attributes ++ ending)) =
      endOpening? tag attributes ending := by
  rw [Element.writeOpening, List.cons_append, List.append_assoc,
    readTag?_of_opening areBlank isNamed,
    readOpening?_append isNamed areNamed endsName endsAttributes]

/-- A written end of an element is read back, after white space. -/
theorem readTag?_writeClosing
    {blanks : List Char}
    (areBlank : ∀ character ∈ blanks, isSeparator character = true)
    {tag : String}
    (isNamed : isName tag.toList = true)
    (rest : List Char) :
    readTag? (blanks ++ (Element.writeClosing tag ++ rest)) = some (.closing tag, rest) := by
  have written : Element.writeClosing tag ++ rest = '<' :: '/' :: (tag.toList ++ '>' :: rest) := by
    simp [Element.writeClosing]
  rw [readTag?, written, List.dropWhile_append_of_pos areBlank,
    List.dropWhile_cons_of_neg (by decide)]
  exact readClosing?_append isNamed rest

/-- A text starts with tags, behind which the rest of it is read as it would be alone. -/
def StartsWith (text : List Char) (tags : List Tag) (rest : List Char) : Prop :=
  readMany readTag? text = (tags ++ (readMany readTag? rest).1, (readMany readTag? rest).2)

namespace StartsWith

theorem nil (text : List Char) : StartsWith text [] text :=
  rfl

theorem single
    {text rest : List Char}
    {tag : Tag}
    (found : readTag? text = some (tag, rest))
    (taken : rest.length < text.length) :
    StartsWith text [tag] rest :=
  readMany_of_some found taken

/-- Tags can be read in two goes. -/
theorem append
    {text middle rest : List Char}
    {first second : List Tag}
    (starts : StartsWith text first middle)
    (goesOn : StartsWith middle second rest) :
    StartsWith text (first ++ second) rest := by
  rw [StartsWith, starts, goesOn, List.append_assoc]

end StartsWith

variable
  {gap : Nat → List Char}
  (gapBlank : ∀ depth, ∀ character ∈ gap depth, isSeparator character = true)

include gapBlank

mutual

/-- A written element is read as its tags. -/
theorem startsWith_write
    {blanks : List Char}
    (areBlank : ∀ character ∈ blanks, isSeparator character = true)
    (depth : Nat)
    (rest : List Char) :
    ∀ element : Element,
      element.isWellNamed = true →
        StartsWith (blanks ++ (element.write gap depth ++ rest)) element.tags rest
  | .mk tag attributes [], wellNamed => by
      simp only [Element.isWellNamed, Bool.and_eq_true] at wellNamed
      rw [Element.write, List.append_assoc]
      have read : readTag? (blanks ++ (Element.writeOpening tag attributes ++
          (" />".toList ++ rest))) = some (.childless tag attributes, rest) :=
        readTag?_writeOpening areBlank wellNamed.1.1 wellNamed.1.2
          (by simp [isNamePart, isNameStart]) rfl
      refine .single read ?_
      simp only [List.length_append, Element.writeOpening, List.length_cons]
      omega
  | .mk tag attributes (child :: children), wellNamed => by
      simp only [Element.isWellNamed, Bool.and_eq_true] at wellNamed
      have inner :=
        startsWith_writeAll (depth + 1) (gap depth ++ (Element.writeClosing tag ++ rest))
          (child :: children) wellNamed.2
      have closing : StartsWith (gap depth ++ (Element.writeClosing tag ++ rest))
          [.closing tag] rest := by
        refine .single (readTag?_writeClosing (gapBlank depth) wellNamed.1.1 rest) ?_
        simp only [List.length_append, Element.writeClosing, List.length_cons]
        omega
      have written :
          (Element.mk tag attributes (child :: children)).write gap depth ++ rest =
            Element.writeOpening tag attributes ++
              '>' :: (Element.writeAll gap (depth + 1) (child :: children) ++
                (gap depth ++ (Element.writeClosing tag ++ rest))) := by
        simp [Element.write]
      have read (behind : List Char) :
          readTag? (blanks ++ (Element.writeOpening tag attributes ++ '>' :: behind)) =
            some (.opening tag attributes, behind) :=
        readTag?_writeOpening areBlank wellNamed.1.1 wellNamed.1.2
          (by simp [isNamePart, isNameStart]) rfl
      rw [written]
      refine (StartsWith.single (read _) ?_).append (inner.append closing)
      simp only [List.length_append, Element.writeOpening, List.length_cons]
      omega

/-- Written elements are read as the tags of all of them. -/
theorem startsWith_writeAll
    (depth : Nat)
    (rest : List Char) :
    ∀ elements : List Element,
      Element.areWellNamed elements = true →
        StartsWith (Element.writeAll gap depth elements ++ rest)
          (Element.tagsOfAll elements) rest
  | [], _ =>
      .nil rest
  | child :: children, wellNamed => by
      simp only [Element.areWellNamed, Bool.and_eq_true] at wellNamed
      rw [Element.writeAll, List.append_assoc, List.append_assoc]
      exact (startsWith_write (gapBlank depth) depth _ child wellNamed.1).append
        (startsWith_writeAll depth rest children wellNamed.2)

end

omit gapBlank

namespace Assembly

/-- Whether an assembly still takes elements. -/
def isOpen : Assembly → Bool
  | .finished _ => false
  | _ => true

/-- A tag that opens an element puts it under way in what is still open. -/
theorem step_opening
    {assembly : Assembly}
    (unfinished : assembly.isOpen = true)
    (tag : String)
    (attributes : List (String × String)) :
    assembly.step (.opening tag attributes) = some (.underway assembly tag attributes []) := by
  cases assembly with
  | finished element =>
      cases unfinished
  | _ =>
      rfl

mutual

/-- The tags of an element put the element where the assembly has come to. -/
theorem foldlM_tags
    {assembly : Assembly}
    (unfinished : assembly.isOpen = true) :
    ∀ element : Element,
      element.tags.foldlM step assembly = assembly.place element
  | .mk tag attributes [] => by
      simp [Element.tags, step]
  | .mk tag attributes (child :: children) => by
      rw [Element.tags, List.foldlM_cons, step_opening unfinished, Option.bind_eq_bind,
        Option.bind_some, List.foldlM_append,
        foldlM_tagsOfAll assembly tag attributes [] (child :: children)]
      simp [step]

/-- The tags of elements add the elements to those inside the one under way. -/
theorem foldlM_tagsOfAll
    (surrounding : Assembly)
    (tag : String)
    (attributes : List (String × String))
    (before : List Element) :
    ∀ elements : List Element,
      (Element.tagsOfAll elements).foldlM step (.underway surrounding tag attributes before) =
        some (.underway surrounding tag attributes (before ++ elements))
  | [] => by
      rw [List.append_nil]
      rfl
  | child :: children => by
      rw [Element.tagsOfAll, List.foldlM_append, foldlM_tags rfl child]
      change (Element.tagsOfAll children).foldlM step
        (.underway surrounding tag attributes (before ++ [child])) = _
      rw [foldlM_tagsOfAll surrounding tag attributes (before ++ [child]) children]
      simp

end

end Assembly

/-- The tags of an element make up the element. -/
theorem assemble?_tags (element : Element) :
    assemble? element.tags = some element := by
  rw [assemble?, Assembly.foldlM_tags rfl]
  rfl

end Markup

namespace Element

/-- A document of a written element is read back as the element. -/
theorem read?_write
    {gap : Nat → List Char}
    (gapBlank : ∀ depth, ∀ character ∈ gap depth, Markup.isSeparator character = true)
    {element : Element}
    (wellNamed : element.isWellNamed = true) :
    Markup.read?
        ("<?xml version=\"1.0\" encoding=\"UTF-8\"?>\n" ++
          String.ofList (element.write gap 0) ++ "\n") =
      some element := by
  have body :
      Markup.documentBody?
          ("<?xml version=\"1.0\" encoding=\"UTF-8\"?>\n" ++
            String.ofList (element.write gap 0) ++ "\n").toList =
        some (['\n'] ++ (element.write gap 0 ++ ['\n'])) := by
    simp only [String.toList_append, String.toList_ofList]
    rw [List.append_assoc]
    rfl
  have tagged :
      Markup.readMany Markup.readTag? (['\n'] ++ (element.write gap 0 ++ ['\n'])) =
        (element.tags, ['\n']) := by
    have newline : ∀ character ∈ ['\n'], Markup.isSeparator character = true :=
      List.all_eq_true.mp (by decide)
    have ended : Markup.readMany Markup.readTag? ['\n'] = ([], ['\n']) :=
      Markup.readMany_of_none rfl
    have starts := Markup.startsWith_write gapBlank newline 0 ['\n'] element wellNamed
    rw [Markup.StartsWith, ended] at starts
    simpa using starts
  rw [Markup.read?, body]
  simp only [Option.bind_eq_bind, Option.bind_some, tagged]
  exact Markup.assemble?_tags element

/-- An indented document is read back. -/
theorem read?_pretty
    {element : Element}
    (wellNamed : element.isWellNamed = true) :
    Markup.read?
        ("<?xml version=\"1.0\" encoding=\"UTF-8\"?>\n" ++
          String.ofList element.pretty ++ "\n") =
      some element := by
  refine read?_write (fun depth character member => ?_) wellNamed
  rcases List.mem_cons.mp member with rfl | inRow
  · rfl
  · rw [(List.mem_replicate.mp inRow).2]
    rfl

theorem read?_compact
    {element : Element}
    (wellNamed : element.isWellNamed = true) :
    Markup.read?
        ("<?xml version=\"1.0\" encoding=\"UTF-8\"?>\n" ++
          String.ofList element.compact ++ "\n") =
      some element :=
  read?_write (fun _ _ member => absurd member List.not_mem_nil) wellNamed

end Element

end GitLanes
