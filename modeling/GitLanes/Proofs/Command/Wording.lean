import GitLanes.Command.Console
import GitLanes.Proofs.Number.Numerals
import GitLanes.Proofs.Text.Quoted

namespace GitLanes

/-!
# The wording of notices

A notice is told by its message. What it quotes stands between the only quotes
around it, the words in front and behind are those of its kind, and a number is
as long as there are digits. All of it is printable, whatever a source has put
into the text that is quoted.
-/

/-- What is true of the characters that numerals are written with is true all along a numeral. -/
theorem forall_mem_integerNumeral
    {kind : Char → Bool}
    (listed : (asciiDigits ++ ['+', '-', '.', 'a', 'e', 'f', 'i', 'n']).all kind = true)
    (value : Int) :
    ∀ character ∈ integerNumeral value, kind character = true := by
  intro character member
  have numeral := isNumeralCharacter_of_mem_integerNumeral value character member
  rw [isNumeralCharacter, Bool.or_eq_true, isDigit_iff_mem, List.contains_iff_mem,
    ← List.mem_append] at numeral
  exact List.all_eq_true.mp listed character numeral

/-- A text that consists of printable characters. -/
def IsPrintableText (text : String) : Prop :=
  ∀ character ∈ text.toList, isPrintable character = true

namespace IsPrintableText

/-- Whether a text of ASCII is printable can be checked without the table of Unicode. -/
theorem plain
    {text : String}
    (isPlainText : text.toList.all isPlain = true) :
    IsPrintableText text :=
  isPrintable_of_all_isPlain isPlainText

theorem append
    {first second : String}
    (firstPrintable : IsPrintableText first)
    (secondPrintable : IsPrintableText second) :
    IsPrintableText (first ++ second) := by
  rw [IsPrintableText, String.toList_append, List.forall_mem_append]
  exact ⟨firstPrintable, secondPrintable⟩

theorem integer (value : Int) :
    IsPrintableText (integerText value) := by
  rw [IsPrintableText, toList_integerText]
  intro character member
  refine isPrintable_of_isPlain ?_
  exact forall_mem_integerNumeral (by decide +kernel) value character member

/-- A text between quotes is printable, whatever it holds. -/
theorem quoted (text : String) :
    IsPrintableText (quotedText text.toList) := by
  rw [IsPrintableText, toList_quotedText]
  exact isPrintable_of_mem_quote text.toList

/-- No character of a printable text breaks a line. -/
theorem isLineBreak_eq_false
    {text : String}
    (printable : IsPrintableText text) :
    ∀ character ∈ text.toList, isLineBreak character = false :=
  fun character member => isLineBreak_eq_false_of_isPrintable (printable character member)

end IsPrintableText

/-- What a notice can be about. -/
inductive NoticeKind
  | ignored
  | created
  | revisited
  | unknownCheckout
  | nothingToMerge
  deriving DecidableEq

namespace NoticeKind

/-- What notices of a kind say in front of their subject. -/
def phrase : NoticeKind → String
  | .ignored => " ignored: "
  | .created | .revisited => "branch "
  | .unknownCheckout => ": checkout of unknown branch "
  | .nothingToMerge => ": nothing to merge from "

/-- What notices of a kind say behind their subject. -/
def closing : NoticeKind → String
  | .created => " created on lane "
  | .revisited => " already exists; switching to it"
  | .unknownCheckout => " ignored"
  | .ignored | .nothingToMerge => ""

theorem isPrintableText_phrase (kind : NoticeKind) :
    IsPrintableText kind.phrase := by
  cases kind <;> exact .plain (by decide +kernel)

theorem isPrintableText_closing (kind : NoticeKind) :
    IsPrintableText kind.closing := by
  cases kind <;> exact .plain (by decide +kernel)

/-- The wording tells of what kind a notice is. -/
theorem eq_of_wording
    {first second : NoticeKind}
    (samePhrase : first.phrase = second.phrase)
    (sameClosing : first.closing = second.closing) :
    first = second := by
  cases first <;> cases second <;> simp [phrase, closing] at samePhrase sameClosing ⊢

end NoticeKind

namespace Notice

/-- What a notice is about. -/
def kind : Notice → NoticeKind
  | .ignored _ _ => .ignored
  | .created _ _ => .created
  | .revisited _ => .revisited
  | .unknownCheckout _ _ => .unknownCheckout
  | .nothingToMerge _ _ => .nothingToMerge

/-- The index of the directive that a notice names. -/
def index? : Notice → Option Int
  | .ignored index _ | .unknownCheckout index _ | .nothingToMerge index _ => some index
  | .created _ _ | .revisited _ => none

/-- The text or the name that a notice quotes. -/
def subject : Notice → String
  | .ignored _ text => text
  | .created name _ | .revisited name | .unknownCheckout _ name | .nothingToMerge _ name => name

/-- The lane that a notice tells. -/
def lane? : Notice → Option Nat
  | .created _ lane => some lane
  | .ignored _ _ | .revisited _ | .unknownCheckout _ _ | .nothingToMerge _ _ => none

/-- A notice is made up of its parts. -/
theorem eq_of_parts
    {first second : Notice}
    (sameKind : first.kind = second.kind)
    (sameIndex : first.index? = second.index?)
    (sameSubject : first.subject = second.subject)
    (sameLane : first.lane? = second.lane?) :
    first = second := by
  cases first <;> cases second <;> simp_all [kind, index?, subject, lane?]

/-- The words that name a directive, if a notice names one. -/
def indexText : Option Int → String
  | none => ""
  | some index => "line " ++ integerText index

/-- A lane in digits, if a notice tells one. -/
def laneText : Option Nat → String
  | none => ""
  | some lane => integerText lane

/-- What stands in front of the subject of a notice. -/
def lead (notice : Notice) : String :=
  indexText notice.index? ++ notice.kind.phrase

/-- What stands behind the subject of a notice. -/
def ending (notice : Notice) : String :=
  notice.kind.closing ++ laneText notice.lane?

/-- A message is its lead, its subject between quotes and its ending. -/
theorem message_eq (notice : Notice) :
    notice.message =
      notice.lead ++ quotedText notice.subject.toList ++ notice.ending := by
  -- A part that a notice does not have is an empty text here and left out in its message.
  cases notice with
  | created name lane =>
      change "branch " ++ quotedText name.toList ++ " created on lane " ++
          integerText lane =
        "" ++ "branch " ++ quotedText name.toList ++
          (" created on lane " ++ integerText lane)
      rw [String.empty_append, String.append_assoc]
  | revisited name =>
      change "branch " ++ quotedText name.toList ++ " already exists; switching to it" =
        "" ++ "branch " ++ quotedText name.toList ++
          (" already exists; switching to it" ++ "")
      rw [String.empty_append, String.append_empty]
  | unknownCheckout index name =>
      change "line " ++ integerText index ++ ": checkout of unknown branch " ++
          quotedText name.toList ++ " ignored" =
        "line " ++ integerText index ++ ": checkout of unknown branch " ++
          quotedText name.toList ++ (" ignored" ++ "")
      rw [String.append_empty]
  | ignored index text | nothingToMerge index name =>
      change _ = _ ++ ("" ++ "")
      rw [String.append_empty, String.append_empty]
      rfl

/-- Every message is printable, whatever its subject is. -/
theorem isPrintableText_message (notice : Notice) :
    IsPrintableText notice.message := by
  have indexPrintable : IsPrintableText (indexText notice.index?) := by
    cases notice.index? with
    | none =>
        exact .plain rfl
    | some index =>
        exact (IsPrintableText.plain (by decide +kernel)).append (.integer index)
  have lanePrintable : IsPrintableText (laneText notice.lane?) := by
    cases notice.lane? with
    | none =>
        exact .plain rfl
    | some lane =>
        exact .integer lane
  rw [message_eq]
  exact ((indexPrintable.append notice.kind.isPrintableText_phrase).append (.quoted _)).append
    (notice.kind.isPrintableText_closing.append lanePrintable)

/-! Notices are told apart by their texts. -/

theorem toList_message (notice : Notice) :
    notice.message.toList =
      notice.lead.toList ++ (quote notice.subject.toList ++ notice.ending.toList) := by
  rw [message_eq, String.toList_append, String.toList_append, toList_quotedText,
    List.append_assoc]

theorem toList_indexText (index : Int) :
    (indexText (some index)).toList = "line ".toList ++ integerNumeral index :=
  String.toList_append.trans (congrArg _ (toList_integerText index))

/-- Whether a character is not a quote. -/
def isOutsideQuotes (character : Char) : Bool :=
  !quoteMarks.contains character

/-- No quote stands in front of the subject of a notice. -/
theorem isOutsideQuotes_of_mem_lead
    (notice : Notice) :
    ∀ character ∈ notice.lead.toList, isOutsideQuotes character = true := by
  have phraseOutside : notice.kind.phrase.toList.all isOutsideQuotes = true := by
    cases notice.kind <;> decide +kernel
  rw [lead, String.toList_append, List.forall_mem_append]
  refine ⟨?_, List.all_eq_true.mp phraseOutside⟩
  cases notice.index? with
  | none =>
      exact List.all_eq_true.mp rfl
  | some index =>
      rw [toList_indexText, List.forall_mem_append]
      exact ⟨List.all_eq_true.mp (by decide +kernel),
        forall_mem_integerNumeral (by decide +kernel) index⟩

/-- The subject starts with a quote. -/
theorem not_isOutsideQuotes_of_head?_quote
    (text rest : List Char) :
    ∀ next ∈ (quote text ++ rest).head?, isOutsideQuotes next = false := by
  intro next starts
  obtain rfl : quoteFor text = next := Option.some.inj starts
  rw [isOutsideQuotes, List.contains_iff_mem.mpr (quoteFor_mem text), Bool.not_true]

/-- No phrase goes on with a number, so the index in front of it ends there. -/
theorem not_isNumeralCharacter_of_head?_phrase
    (kind : NoticeKind) :
    ∀ next ∈ kind.phrase.toList.head?, isNumeralCharacter next = false := by
  have notNumeral : kind.phrase.toList.head?.any isNumeralCharacter = false := by
    cases kind <;> decide +kernel
  intro next starts
  rwa [Option.mem_def.mp starts, Option.any_some] at notNumeral

/-- What stands in front of the subject tells the index and the phrase. -/
theorem index_and_phrase_of_lead
    {first second : Notice}
    (same : first.lead = second.lead) :
    first.index? = second.index? ∧ first.kind.phrase = second.kind.phrase := by
  have notLine (kind : NoticeKind) : kind.phrase.toList.head? ≠ some 'l' := by
    cases kind <;> decide +kernel
  have told (index : Int) (kind other : NoticeKind) :
      indexText none ++ kind.phrase ≠ indexText (some index) ++ other.phrase := by
    intro sameLead
    have sameHead := congrArg (·.toList.head?) sameLead
    simp only [indexText, String.empty_append, String.toList_append, List.append_assoc] at sameHead
    exact notLine kind sameHead
  unfold lead at same
  -- Only a notice that names a directive starts with the letter of "line".
  cases firstIndex : first.index? with
  | none =>
      cases secondIndex : second.index? with
      | none =>
          rw [firstIndex, secondIndex, indexText, String.empty_append, String.empty_append] at same
          exact ⟨rfl, same⟩
      | some index =>
          rw [firstIndex, secondIndex] at same
          exact (told _ _ _ same).elim
  | some index =>
      cases secondIndex : second.index? with
      | none =>
          rw [firstIndex, secondIndex] at same
          exact (told _ _ _ same.symm).elim
      | some other =>
          have sameLead := congrArg String.toList same
          rw [firstIndex, secondIndex, String.toList_append, String.toList_append,
            toList_indexText, toList_indexText, List.append_assoc, List.append_assoc] at sameLead
          obtain ⟨sameNumeral, samePhrase⟩ :=
            run_append_inj (isNumeralCharacter_of_mem_integerNumeral index)
              (not_isNumeralCharacter_of_head?_phrase first.kind)
              (isNumeralCharacter_of_mem_integerNumeral other)
              (not_isNumeralCharacter_of_head?_phrase second.kind)
              (List.append_cancel_left sameLead)
          exact ⟨congrArg some (integerNumeral_injective sameNumeral),
            String.toList_injective samePhrase⟩

/-- Whether a character is no digit. -/
def isNoDigit (character : Char) : Bool :=
  !character.isDigit

/-- No closing words hold a digit, so the lane behind them starts there. -/
theorem isNoDigit_of_mem_closing
    (kind : NoticeKind) :
    ∀ character ∈ kind.closing.toList, isNoDigit character = true := by
  have listed : kind.closing.toList.all isNoDigit = true := by
    cases kind <;> decide +kernel
  exact List.all_eq_true.mp listed

theorem not_isNoDigit_of_head?_laneText
    (lane? : Option Nat) :
    ∀ next ∈ (laneText lane?).toList.head?, isNoDigit next = false := by
  intro next starts
  cases lane? with
  | none =>
      cases starts
  | some lane =>
      rw [isNoDigit, isDigit_of_mem_integerText next (List.mem_of_mem_head? starts), Bool.not_true]

/-- The lane can be read off its text, and whether there is one. -/
theorem laneText_injective : Function.Injective laneText := by
  intro first second same
  cases first with
  | none =>
      cases second with
      | none =>
          rfl
      | some lane =>
          exact (integerText_natCast_ne_empty lane same.symm).elim
  | some lane =>
      cases second with
      | none =>
          exact (integerText_natCast_ne_empty lane same).elim
      | some other =>
          exact congrArg some (Int.ofNat_inj.mp (integerText_injective same))

/-- What stands behind the subject tells the closing words and the lane. -/
theorem closing_and_lane_of_ending
    {first second : Notice}
    (same : first.ending = second.ending) :
    first.kind.closing = second.kind.closing ∧ first.lane? = second.lane? := by
  have sameEnding := congrArg String.toList same
  rw [ending, ending, String.toList_append, String.toList_append] at sameEnding
  obtain ⟨sameClosing, sameLane⟩ :=
    run_append_inj
      (isNoDigit_of_mem_closing first.kind) (not_isNoDigit_of_head?_laneText first.lane?)
      (isNoDigit_of_mem_closing second.kind) (not_isNoDigit_of_head?_laneText second.lane?)
      sameEnding
  exact ⟨String.toList_injective sameClosing, laneText_injective (String.toList_injective sameLane)⟩

/-- A notice can be told from its message. -/
theorem message_injective : Function.Injective message := by
  intro first second same
  have sameText := congrArg String.toList same
  rw [toList_message, toList_message] at sameText
  obtain ⟨sameLead, sameRest⟩ :=
    run_append_inj first.isOutsideQuotes_of_mem_lead (not_isOutsideQuotes_of_head?_quote _ _)
      second.isOutsideQuotes_of_mem_lead (not_isOutsideQuotes_of_head?_quote _ _) sameText
  obtain ⟨sameSubject, sameEnding⟩ := quote_append_inj sameRest
  obtain ⟨sameIndex, samePhrase⟩ :=
    index_and_phrase_of_lead (String.toList_injective sameLead)
  obtain ⟨sameClosing, sameLane⟩ :=
    closing_and_lane_of_ending (String.toList_injective sameEnding)
  exact eq_of_parts (NoticeKind.eq_of_wording samePhrase sameClosing) sameIndex
    (String.toList_injective sameSubject) sameLane

end Notice

end GitLanes
