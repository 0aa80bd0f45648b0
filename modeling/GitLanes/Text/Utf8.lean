namespace GitLanes

/-!
# UTF-8

Text is stored as UTF-8. Reading accepts any bytes: a byte that cannot stand
where it stands ends the character under way, and each character that is cut
short, like each byte that begins none, is read as one replacement character. A
byte-order mark is a character like any other.
-/

/-- A character under way: its bits so far and what the next bytes must be. -/
structure PartialCharacter where
  bits : Nat
  /-- The number of bytes that are missing. -/
  missing : Nat
  /-- The least value of the next byte. -/
  least : Nat
  /-- The greatest value of the next byte. -/
  greatest : Nat
  deriving Repr, DecidableEq

namespace Utf8

/-- The character that stands for bytes that are no character. -/
def replacement : Char := '\uFFFD'

/-- The bytes of a character. -/
def encodeCharacter (character : Char) : List UInt8 :=
  let code := character.toNat
  let tail (unit : Nat) := UInt8.ofNat (0x80 + code / unit % 0x40)
  if code < 0x80 then
    [UInt8.ofNat code]
  else if code < 0x800 then
    [UInt8.ofNat (0xC0 + code / 0x40), tail 1]
  else if code < 0x10000 then
    [UInt8.ofNat (0xE0 + code / 0x1000), tail 0x40, tail 1]
  else
    [UInt8.ofNat (0xF0 + code / 0x40000), tail 0x1000, tail 0x40, tail 1]

/-- The bytes of a text. -/
def encode (text : List Char) : List UInt8 :=
  text.flatMap encodeCharacter

/--
The character that a byte begins, if it begins a longer one.

The bounds on the second byte keep out surrogates, codes beyond the last one
and codes that have a shorter form.
-/
def begin? (byte : Nat) : Option PartialCharacter :=
  if 0xC2 ≤ byte ∧ byte ≤ 0xDF then some ⟨byte % 0x20, 1, 0x80, 0xBF⟩
  else if byte = 0xE0 then some ⟨0, 2, 0xA0, 0xBF⟩
  else if byte = 0xED then some ⟨0xD, 2, 0x80, 0x9F⟩
  else if 0xE1 ≤ byte ∧ byte ≤ 0xEF then some ⟨byte % 0x10, 2, 0x80, 0xBF⟩
  else if byte = 0xF0 then some ⟨0, 3, 0x90, 0xBF⟩
  else if byte = 0xF4 then some ⟨4, 3, 0x80, 0x8F⟩
  else if 0xF1 ≤ byte ∧ byte ≤ 0xF3 then some ⟨byte % 0x08, 3, 0x80, 0xBF⟩
  else none

/-- The character that a byte is by itself, or the longer one that it begins. -/
def start (byte : Nat) : List Char × Option PartialCharacter :=
  if byte < 0x80 then
    ([Char.ofNat byte], none)
  else
    match begin? byte with
    | none => ([replacement], none)
    | some underway => ([], some underway)

/-- What a byte adds to a character under way, if it can stand there. -/
def extend (underway : PartialCharacter) (byte : Nat) : List Char × Option PartialCharacter :=
  let bits := underway.bits * 0x40 + byte % 0x40
  if underway.missing ≤ 1 then
    ([Char.ofNat bits], none)
  else
    ([], some ⟨bits, underway.missing - 1, 0x80, 0xBF⟩)

/-- The characters that end with a byte, and the character that is under way after it. -/
def step (state : Option PartialCharacter) (byte : Nat) : List Char × Option PartialCharacter :=
  match state with
  | none => start byte
  | some underway =>
      if underway.least ≤ byte ∧ byte ≤ underway.greatest then
        extend underway byte
      else
        (replacement :: (start byte).1, (start byte).2)

/-- The text of bytes that follow a character under way. -/
def decodeAfter : Option PartialCharacter → List UInt8 → List Char
  | none, [] => []
  | some _, [] => [replacement]
  | state, byte :: rest =>
      (step state byte.toNat).1 ++ decodeAfter (step state byte.toNat).2 rest

/-- The text of any bytes. -/
def decode (bytes : List UInt8) : List Char :=
  decodeAfter none bytes

end Utf8

end GitLanes
