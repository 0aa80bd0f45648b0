import GitLanes.Script.Directive
import GitLanes.Text.Blank

namespace GitLanes

/-!
# Reading a line as a directive

A commit line may quote an identifier and then a tag; anything after what was
understood is ignored. The other directives are a keyword, a run of ASCII
blanks and a name. Blanks and names are read to their full length, which loses
no reading because neither a quote nor a label starts with a blank.
-/

/-- What follows a run of one or more blanks. -/
def afterBlanks? (blank : Char → Bool) : List Char → Option (List Char)
  | [] => none
  | first :: rest => if blank first then some (rest.dropWhile blank) else none

/-- Text in double quotes, which must not be empty, and what follows it. -/
def quoted? (text : List Char) : Option (List Char × List Char) :=
  match ['"'].isPrefixOf? text with
  | none => none
  | some inner =>
      match inner.takeWhile (· != '"'), inner.dropWhile (· != '"') with
      | first :: content, _ :: rest => some (first :: content, rest)
      | _, _ => none

/--
A labelled quotation and what follows it.

The label is set off by blanks on its left, and blanks may separate it from the
quotation.
-/
def field? (label : String) (text : List Char) : Option (List Char × List Char) := do
  let labelled ← afterBlanks? isBlank text
  let value ← label.toList.isPrefixOf? labelled
  quoted? (value.dropWhile isBlank)

/-- The identifier and the tag of a commit, from the text after its keyword. -/
def commitFields (text : List Char) : Option String × Option String :=
  match field? "id:" text with
  | none => (none, (field? "tag:" text).map (String.ofList ·.1))
  | some (id, rest) =>
      (some (String.ofList id), (field? "tag:" rest).map (String.ofList ·.1))

/-- Whether a character may stand in the name of a branch. -/
def isNameCharacter (character : Char) : Bool :=
  character.isAlphanum || character == '_' || character == '-'

/-- The name that follows a keyword. -/
def namedAfter? (keyword : String) (line : List Char) : Option String := do
  let rest ← keyword.toList.isPrefixOf? line
  let named ← afterBlanks? isAsciiBlank rest
  match named.takeWhile isNameCharacter with
  | [] => none
  | first :: name => some (String.ofList (first :: name))

/-- The directive that a line says, whatever the line. -/
def Directive.ofLine (index : Int) (line : List Char) : Directive :=
  match "commit".toList.isPrefixOf? line with
  | some rest => .commit index (commitFields rest).1 (commitFields rest).2
  | none =>
      match namedAfter? "branch" line with
      | some name => .branch index name
      | none =>
          match namedAfter? "checkout" line with
          | some name => .checkout index name
          | none =>
              match namedAfter? "merge" line with
              | some name => .merge index name
              | none => .unrecognized index (String.ofList line)

end GitLanes
