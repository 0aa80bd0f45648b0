namespace GitLanes

/-!
# Markup

A document is a tree of elements with attributes in a fixed order. It is
written either compactly or with every element on a line of its own; the two
differ only in the white space between tags, which is a function of the depth.
Characters that mean something in markup, and the line ends and tabs that a
reader would change, are written as references.
-/

/-- An element with its attributes and the elements inside it. -/
inductive Element
  | mk (tag : String) (attributes : List (String × String)) (children : List Element)
  deriving Repr

namespace Element

/-- A character as it is written in an attribute. -/
def escape : Char → List Char
  | '&' => "&amp;".toList
  | '<' => "&lt;".toList
  | '>' => "&gt;".toList
  | '"' => "&quot;".toList
  | '\r' => "&#13;".toList
  | '\n' => "&#10;".toList
  | '\t' => "&#09;".toList
  | character => [character]

/-- An attribute with the space before it. -/
def writeAttribute (named : String × String) : List Char :=
  ' ' :: (named.1.toList ++ '=' :: '"' :: (named.2.toList.flatMap escape ++ ['"']))

/-- The tag and the attributes that open an element. -/
def writeOpening (tag : String) (attributes : List (String × String)) : List Char :=
  '<' :: (tag.toList ++ attributes.flatMap writeAttribute)

/-- The tag that closes an element. -/
def writeClosing (tag : String) : List Char :=
  '<' :: '/' :: (tag.toList ++ ['>'])

mutual

/-- An element, with white space before the tags inside it. -/
def write (gap : Nat → List Char) (depth : Nat) : Element → List Char
  | .mk tag attributes [] =>
      writeOpening tag attributes ++ " />".toList
  | .mk tag attributes (child :: children) =>
      writeOpening tag attributes ++ '>' ::
        (writeAll gap (depth + 1) (child :: children) ++ (gap depth ++ writeClosing tag))

/-- Elements at one depth, each after its white space. -/
def writeAll (gap : Nat → List Char) (depth : Nat) : List Element → List Char
  | [] => []
  | child :: children =>
      gap depth ++ (write gap depth child ++ writeAll gap depth children)

end

/-- The white space of compact markup, which is none. -/
def noGap (_ : Nat) : List Char :=
  []

/-- The white space of pretty markup: a line break and two spaces for each level. -/
def indentGap (depth : Nat) : List Char :=
  '\n' :: List.replicate (2 * depth) ' '

/-- An element without white space between its tags. -/
def compact (element : Element) : List Char :=
  element.write noGap 0

/-- An element with every tag that opens an element on a line of its own. -/
def pretty (element : Element) : List Char :=
  element.write indentGap 0

end Element

end GitLanes
