import GitLanes.Number.Shortest

namespace GitLanes

/-!
# Numerals

Integers are written with all their digits. Doubles are written as their
shortest decimal, positionally from 10^-4 up to 10^16 and with an exponent of at
least two digits beyond; a positional one always has a digit on both sides of
its point. Any numeral of that kind can be read, with the double nearest to it
as its value.
-/

/-- The decimal digits of an integer. -/
def integerNumeral (value : Int) : List Char :=
  if value < 0 then
    '-' :: Nat.toDigits 10 value.natAbs
  else
    Nat.toDigits 10 value.natAbs

/--
An integer as a text, with all of its digits.

A runtime can be configured to refuse to write integers of thousands of digits.
That limit is left out here: what is written are indices of lines, positions and
counts, none of which comes near it.
-/
def integerText (value : Int) : String :=
  String.ofList (integerNumeral value)

namespace Decimal

/-- The digits of a decimal without the zeros at their end. -/
def significantDigits (decimal : Decimal) : List Char :=
  ((Nat.toDigits 10 decimal.digits).reverse.dropWhile (· == '0')).reverse

/-- The number of digits before the decimal point. -/
def pointPosition (decimal : Decimal) : Int :=
  (Nat.toDigits 10 decimal.digits).length + decimal.exponent

/-- A decimal written around its point. -/
def positional (decimal : Decimal) : List Char :=
  let digits := decimal.significantDigits
  let point := decimal.pointPosition
  if point ≤ 0 then
    '0' :: '.' :: (List.replicate (-point).toNat '0' ++ digits)
  else
    let whole := point.toNat
    digits.take whole ++ List.replicate (whole - digits.length) '0' ++
      '.' :: (if digits.length ≤ whole then ['0'] else digits.drop whole)

/-- A decimal written with one digit before its point and an exponent. -/
def exponential (decimal : Decimal) : List Char :=
  let exponent := decimal.pointPosition - 1
  let digits := Nat.toDigits 10 exponent.natAbs
  let mantissa :=
    match decimal.significantDigits with
    | first :: second :: rest => first :: '.' :: second :: rest
    | single => single
  mantissa ++ 'e' :: (if exponent < 0 then '-' else '+') ::
    (List.replicate (2 - digits.length) '0' ++ digits)

/-- A decimal in the notation that suits its size. -/
def numeral (decimal : Decimal) : List Char :=
  if -4 < decimal.pointPosition ∧ decimal.pointPosition ≤ 16 then
    decimal.positional
  else
    decimal.exponential

end Decimal

namespace Double

/-- The text of a double. -/
def numeral : Double → List Char
  | .nan => "nan".toList
  | .infinity negative => (if negative then "-inf" else "inf").toList
  | .finite negative units =>
      (if negative then ['-'] else []) ++
        if units = 0 then "0.0".toList else (shortestDecimal units).numeral

/--
The double nearest to a decimal.

Beyond four hundred digits on either side of the point the value is certainly
infinite or zero.
-/
def ofDecimal (negative : Bool) (decimal : Decimal) : Double :=
  if decimal.digits = 0 ∨ decimal.pointPosition < -400 then
    .finite negative 0
  else if 400 < decimal.pointPosition then
    .infinity negative
  else
    ofUnits negative
      (decimal.digits * powerOfTen decimal.exponent.toNat * unitsPerOne)
      (powerOfTen (-decimal.exponent).toNat)

/-- The value of a list of digits. -/
def digitsValue (digits : List Char) : Nat :=
  Nat.ofDigitChars 10 digits 0

/-- A sign, which may be left out, and what follows it. -/
def readSign : List Char → Bool × List Char
  | '-' :: rest => (true, rest)
  | '+' :: rest => (false, rest)
  | text => (false, text)

/-- An exponent, which may be left out. -/
def readExponent? : List Char → Option Int
  | [] => some 0
  | mark :: rest =>
      let (negative, digits) := readSign rest
      if mark.toLower = 'e' ∧ digits ≠ [] ∧ digits.all Char.isDigit then
        some (signed negative (digitsValue digits))
      else
        none

/-- A decimal without its sign. -/
def readDecimal? (text : List Char) : Option Decimal :=
  let whole := text.takeWhile Char.isDigit
  let afterWhole := text.dropWhile Char.isDigit
  let (fraction, rest) :=
    match afterWhole with
    | '.' :: decimals => (decimals.takeWhile Char.isDigit, decimals.dropWhile Char.isDigit)
    | other => ([], other)
  if whole = [] ∧ fraction = [] then
    none
  else
    (readExponent? rest).map fun exponent =>
      ⟨digitsValue (whole ++ fraction), exponent - fraction.length⟩

/-- The double that a text denotes. -/
def ofNumeral? (text : List Char) : Option Double :=
  let (negative, magnitude) := readSign text
  match String.ofList (magnitude.map Char.toLower) with
  | "nan" => some .nan
  | "inf" => some (.infinity negative)
  | "infinity" => some (.infinity negative)
  | _ => (readDecimal? magnitude).map (ofDecimal negative)

end Double

end GitLanes
