import GitLanes.Markup.Element
import GitLanes.Script.Line
import Mathlib.Data.List.TakeWhile

namespace GitLanes

/-!
# Reading markup

A reader of markup that knows nothing of who wrote it. A text is read as a list
of tags, which may be set apart by white space, and the tags are put together to
one element. A value of an attribute stands between quotes of either kind; what
is written as a reference in it stands for one character, and white space in it
counts as spaces. Text between tags, a reference of another kind, an attribute
that an element has twice and tags that do not match are refused.
-/

namespace Markup

/-- Whether a character is white space. -/
def isSeparator (character : Char) : Bool :=
  [' ', '\t', '\n', '\r'].contains character

/-- Whether a name may start with a character. -/
def isNameStart (character : Char) : Bool :=
  character.isAlpha || character == '_' || character == ':'

/-- Whether a name may go on with a character. -/
def isNamePart (character : Char) : Bool :=
  isNameStart character || character.isDigit || character == '-' || character == '.'

/-- Whether a text is a name of a tag or of an attribute. -/
def isName : List Char → Bool
  | [] => false
  | first :: rest => isNameStart first && rest.all isNamePart

/-- The name that a text starts with, and what follows it. -/
def readName? (text : List Char) : Option (String × List Char) :=
  if isName (text.takeWhile isNamePart) then
    some (String.ofList (text.takeWhile isNamePart), text.dropWhile isNamePart)
  else
    none

/-- The value that is written between the quotes of an attribute. -/
def decode? : List Char → Option (List Char)
  | [] => some []
  | '&' :: 'a' :: 'm' :: 'p' :: ';' :: rest => (decode? rest).map ('&' :: ·)
  | '&' :: 'l' :: 't' :: ';' :: rest => (decode? rest).map ('<' :: ·)
  | '&' :: 'g' :: 't' :: ';' :: rest => (decode? rest).map ('>' :: ·)
  | '&' :: 'q' :: 'u' :: 'o' :: 't' :: ';' :: rest => (decode? rest).map ('"' :: ·)
  | '&' :: '#' :: '1' :: '3' :: ';' :: rest => (decode? rest).map ('\r' :: ·)
  | '&' :: '#' :: '1' :: '0' :: ';' :: rest => (decode? rest).map ('\n' :: ·)
  | '&' :: '#' :: '0' :: '9' :: ';' :: rest => (decode? rest).map ('\t' :: ·)
  | character :: rest =>
      if character = '&' ∨ character = '<' then
        none
      else
        (decode? rest).map ((if isSeparator character then ' ' else character) :: ·)

/-- The value in quotes that a text starts with, and what follows it. -/
def readValue? : List Char → Option (String × List Char)
  | [] => none
  | mark :: text =>
      if mark = '"' ∨ mark = '\x27' then
        match text.dropWhile (· != mark) with
        | [] => none
        | _ :: rest =>
            (decode? (text.takeWhile (· != mark))).map fun value => (String.ofList value, rest)
      else
        none

/-- The attribute that a text starts with, after white space, and what follows it. -/
def readAttribute? (text : List Char) : Option ((String × String) × List Char) := do
  let named ← afterBlanks? isSeparator text
  let (name, rest) ← readName? named
  let valued ← ['='].isPrefixOf? (rest.dropWhile isSeparator)
  let (value, rest) ← readValue? (valued.dropWhile isSeparator)
  return ((name, value), rest)

/-- As many items as a text starts with, each of which must take something of it. -/
def readMany {α : Type} (item? : List Char → Option (α × List Char)) (text : List Char) :
    List α × List Char :=
  match item? text with
  | none => ([], text)
  | some (value, rest) =>
      if rest.length < text.length then
        (value :: (readMany item? rest).1, (readMany item? rest).2)
      else
        ([], text)
termination_by text.length

/-- A tag that opens an element, closes one, or is one without anything inside it. -/
inductive Tag
  | opening (name : String) (attributes : List (String × String))
  | childless (name : String) (attributes : List (String × String))
  | closing (name : String)
  deriving Repr, DecidableEq

/-- The rest of a tag that closes an element, and what follows it. -/
def readClosing? (text : List Char) : Option (Tag × List Char) := do
  let (name, rest) ← readName? text
  let rest ← ['>'].isPrefixOf? (rest.dropWhile isSeparator)
  return (.closing name, rest)

/-- The end of a tag that starts an element, and what follows it. -/
def endOpening?
    (name : String)
    (attributes : List (String × String))
    (text : List Char) :
    Option (Tag × List Char) :=
  match text.dropWhile isSeparator with
  | '>' :: rest => some (.opening name attributes, rest)
  | '/' :: '>' :: rest => some (.childless name attributes, rest)
  | _ => none

/-- The rest of a tag that starts an element, and what follows it. -/
def readOpening? (text : List Char) : Option (Tag × List Char) := do
  let (name, rest) ← readName? text
  let (attributes, rest) := readMany readAttribute? rest
  if (attributes.map Prod.fst).Nodup then endOpening? name attributes rest else none

/-- The tag that a text starts with, after white space, and what follows it. -/
def readTag? (text : List Char) : Option (Tag × List Char) :=
  match text.dropWhile isSeparator with
  | '<' :: '/' :: rest => readClosing? rest
  | '<' :: rest => readOpening? rest
  | _ => none

/-- An element under way: what is around it, its own tag and the elements inside it so far. -/
inductive Assembly
  | vacant
  | underway
      (surrounding : Assembly)
      (tag : String)
      (attributes : List (String × String))
      (children : List Element)
  | finished (element : Element)
  deriving Repr

namespace Assembly

/-- Put an element where the assembly has come to. -/
def place : Assembly → Element → Option Assembly
  | .vacant, element => some (.finished element)
  | .underway surrounding tag attributes children, element =>
      some (.underway surrounding tag attributes (children ++ [element]))
  | .finished _, _ => none

/-- Go on with one tag. -/
def step (assembly : Assembly) : Tag → Option Assembly
  | .childless name attributes => assembly.place (.mk name attributes [])
  | .opening name attributes =>
      match assembly with
      | .finished _ => none
      | surrounding => some (.underway surrounding name attributes [])
  | .closing name =>
      match assembly with
      | .underway surrounding tag attributes children =>
          if tag = name then surrounding.place (.mk tag attributes children) else none
      | _ => none

/-- The element that was put together, if it is finished. -/
def element? : Assembly → Option Element
  | .finished element => some element
  | _ => none

end Assembly

/-- The element that tags make up. -/
def assemble? (tags : List Tag) : Option Element :=
  (tags.foldlM Assembly.step .vacant).bind Assembly.element?

/-- What follows the end of a declaration. -/
def afterDeclaration? : List Char → Option (List Char)
  | [] => none
  | '?' :: '>' :: rest => some rest
  | _ :: rest => afterDeclaration? rest

/-- What follows the declaration of a document, if it has one. -/
def documentBody? (text : List Char) : Option (List Char) :=
  match ['<', '?', 'x', 'm', 'l'].isPrefixOf? text with
  | some declaration => afterDeclaration? declaration
  | none => some text

/-- The element that a document consists of. -/
def read? (text : String) : Option Element := do
  let body ← documentBody? text.toList
  let (tags, rest) := readMany readTag? body
  if rest.all isSeparator then assemble? tags else none

end Markup

end GitLanes
