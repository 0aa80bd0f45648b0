import GitLanes.Markup.Element

namespace GitLanes

/-!
# Legal characters

Not every character may stand in a document: most control characters may not,
not even as references. Writing an element neither adds such a character nor
removes one, so a document is legal exactly if all its texts are.
-/

namespace Markup

/-- Whether a character may stand in a document. -/
def isLegalCharacter (character : Char) : Bool :=
  ['\t', '\n', '\r'].contains character ||
    decide (0x20 ≤ character.toNat ∧ character.toNat ≤ 0xD7FF) ||
    decide (0xE000 ≤ character.toNat ∧ character.toNat ≤ 0xFFFD) ||
    decide (0x10000 ≤ character.toNat ∧ character.toNat ≤ 0x10FFFF)

/-- Whether all characters of a text may stand in a document. -/
def isLegal (text : String) : Bool :=
  text.toList.all isLegalCharacter

@[simp] theorem isLegal_append
    (first second : String) :
    isLegal (first ++ second) = (isLegal first && isLegal second) := by
  rw [isLegal, String.toList_append, List.all_append]
  rfl

@[simp] theorem isLegal_ofList (text : List Char) :
    isLegal (String.ofList text) = text.all isLegalCharacter := by
  rw [isLegal, String.toList_ofList]

/-- Every visible character of ASCII is legal. -/
theorem isLegalCharacter_of_ascii
    {character : Char}
    (visible : 0x20 ≤ character.toNat)
    (ascii : character.toNat < 0x80) :
    isLegalCharacter character = true := by
  have inRange : 0x20 ≤ character.toNat ∧ character.toNat ≤ 0xD7FF := by omega
  simp [isLegalCharacter, inRange]

theorem isLegalCharacter_of_isAlphanum
    {character : Char}
    (alphanumeric : character.isAlphanum = true) :
    isLegalCharacter character = true := by
  delta Char.isAlphanum Char.isAlpha Char.isUpper Char.isLower Char.isDigit at alphanumeric
  simp only [Bool.or_eq_true, Bool.and_eq_true, decide_eq_true_eq, UInt32.le_iff_toNat_le,
    ge_iff_le] at alphanumeric
  change ((65 ≤ character.toNat ∧ character.toNat ≤ 90) ∨
    (97 ≤ character.toNat ∧ character.toNat ≤ 122)) ∨
      (48 ≤ character.toNat ∧ character.toNat ≤ 57) at alphanumeric
  exact isLegalCharacter_of_ascii (by omega) (by omega)

end Markup

namespace Element

open Markup

mutual

/-- Whether all texts of an element and of those inside it are legal. -/
def isLegal : Element → Bool
  | .mk tag attributes children =>
      Markup.isLegal tag &&
        attributes.all (fun named => Markup.isLegal named.1 && Markup.isLegal named.2) &&
          areLegal children

/-- Whether all texts of some elements and of those inside them are legal. -/
def areLegal : List Element → Bool
  | [] => true
  | child :: children => isLegal child && areLegal children

end

/-- Elements side by side are legal if each of them is. -/
theorem areLegal_eq_all (elements : List Element) :
    areLegal elements = elements.all isLegal := by
  induction elements with
  | nil =>
      rfl
  | cons first rest inductionHypothesis =>
      rw [areLegal, inductionHypothesis, List.all_cons]

/-- A character that is written as a reference is legal, and so is the reference. -/
theorem all_escape (character : Char) :
    (escape character).all isLegalCharacter = isLegalCharacter character := by
  unfold escape
  split
  case h_8 =>
    rw [List.all_cons, List.all_nil, Bool.and_true]
  all_goals decide

/-- Escaping adds nothing illegal and hides nothing illegal. -/
theorem all_flatMap_escape (text : List Char) :
    (text.flatMap escape).all isLegalCharacter = text.all isLegalCharacter := by
  induction text with
  | nil =>
      rfl
  | cons character rest inductionHypothesis =>
      rw [List.flatMap_cons, List.all_append, all_escape, inductionHypothesis, List.all_cons]

/-- A written attribute is legal exactly if its name and its value are. -/
theorem all_writeAttribute (named : String × String) :
    (writeAttribute named).all isLegalCharacter =
      (Markup.isLegal named.1 && Markup.isLegal named.2) := by
  have marks : isLegalCharacter ' ' = true ∧ isLegalCharacter '=' = true ∧
      isLegalCharacter '"' = true := by decide
  simp only [writeAttribute, List.all_cons, List.all_append, List.all_nil, all_flatMap_escape,
    marks, Bool.true_and, Bool.and_true]
  rfl

/-- The start of a written element is legal exactly if its tag and its attributes are. -/
theorem all_writeOpening
    (tag : String)
    (attributes : List (String × String)) :
    (writeOpening tag attributes).all isLegalCharacter =
      (Markup.isLegal tag &&
        attributes.all fun named => Markup.isLegal named.1 && Markup.isLegal named.2) := by
  have mark : isLegalCharacter '<' = true := by decide
  simp only [writeOpening, List.all_cons, List.all_append, List.all_flatMap, all_writeAttribute,
    mark, Bool.true_and]
  rfl

theorem all_writeClosing (tag : String) :
    (writeClosing tag).all isLegalCharacter = Markup.isLegal tag := by
  have marks : isLegalCharacter '<' = true ∧ isLegalCharacter '/' = true ∧
      isLegalCharacter '>' = true := by decide
  simp [writeClosing, marks, Markup.isLegal]

section

variable {gap : Nat → List Char}
variable (legalGap : ∀ depth, (gap depth).all isLegalCharacter = true)
include legalGap

mutual

/-- What is written for an element is legal exactly if its texts are. -/
theorem all_write
    (depth : Nat) :
    ∀ element : Element, (element.write gap depth).all isLegalCharacter = element.isLegal
  | .mk tag attributes [] => by
      have marks : " />".toList.all isLegalCharacter = true := by decide
      rw [write, List.all_append, all_writeOpening, marks, isLegal, areLegal]
  | .mk tag attributes (child :: children) => by
      have mark : isLegalCharacter '>' = true := by decide
      rw [write, List.all_append, all_writeOpening, List.all_cons, mark, Bool.true_and,
        List.all_append, List.all_append, all_writeAll (depth + 1) (child :: children),
        legalGap depth, Bool.true_and, all_writeClosing, isLegal]
      cases Markup.isLegal tag <;> simp

/-- What is written for some elements is legal exactly if their texts are. -/
theorem all_writeAll
    (depth : Nat) :
    ∀ elements : List Element,
      (writeAll gap depth elements).all isLegalCharacter = areLegal elements
  | [] =>
      rfl
  | child :: children => by
      rw [writeAll, List.all_append, List.all_append, legalGap depth, Bool.true_and,
        all_write depth child, all_writeAll depth children, areLegal]

end

end

theorem all_compact (element : Element) :
    element.compact.all isLegalCharacter = element.isLegal :=
  all_write (fun _ => rfl) 0 element

/-- An indented text is legal exactly if its element is. -/
theorem all_pretty (element : Element) :
    element.pretty.all isLegalCharacter = element.isLegal := by
  refine all_write (fun depth => ?_) 0 element
  rw [indentGap, List.all_cons, List.all_replicate]
  simp [show isLegalCharacter '\n' = true by decide, show isLegalCharacter ' ' = true by decide]

end Element

end GitLanes
