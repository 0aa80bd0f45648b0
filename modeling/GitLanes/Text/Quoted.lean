import GitLanes.Text.Printable

namespace GitLanes

/-!
# Quoted text

A text is shown between quotes, with everything that cannot be shown as it is
written as an escape. Single quotes are used unless the text holds one and no
double quote. Escapes by code point have two, four or eight hexadecimal digits,
whichever is enough.
-/

/-- The quote that a text is shown between. -/
def quoteFor (text : List Char) : Char :=
  if text.contains '\x27' && !text.contains '"' then '"' else '\x27'

/-- A number as hexadecimal digits, filled up with zeros to a width. -/
def hexadecimal (width value : Nat) : List Char :=
  let digits := Nat.toDigits 16 value
  List.replicate (width - digits.length) '0' ++ digits

/-- A character as an escape by its code point. -/
def codeEscape (character : Char) : List Char :=
  let code := character.toNat
  if code < 0x100 then
    '\\' :: 'x' :: hexadecimal 2 code
  else if code < 0x10000 then
    '\\' :: 'u' :: hexadecimal 4 code
  else
    '\\' :: 'U' :: hexadecimal 8 code

/-- A character as it is shown between quotes. -/
def escapeCharacter (quote character : Char) : List Char :=
  if character == quote || character == '\\' then ['\\', character]
  else if character == '\t' then ['\\', 't']
  else if character == '\n' then ['\\', 'n']
  else if character == '\r' then ['\\', 'r']
  else if isPrintable character then [character]
  else codeEscape character

/-- A text between quotes. -/
def quote (text : List Char) : List Char :=
  let mark := quoteFor text
  mark :: (text.flatMap (escapeCharacter mark) ++ [mark])

/-- A text between quotes, as a part of a message. -/
def quotedText (text : List Char) : String :=
  String.ofList (quote text)

end GitLanes
