import GitLanes.Number.Numeral

namespace GitLanes

/-!
# Numerals

The numeral of an integer tells which integer it is, and no numeral is written
with anything but digits, signs, points and the letters of the special values.
-/

/-- The integer that a text denotes: digits, with or without a minus sign. -/
def integerOf? (text : List Char) : Option Int :=
  if (Double.readSign text).2 ≠ [] ∧ (Double.readSign text).2.all Char.isDigit then
    some (Double.signed (Double.readSign text).1 (Double.digitsValue (Double.readSign text).2))
  else
    none

theorem isDigit_of_mem_toDigits
    {value : Nat}
    {character : Char}
    (member : character ∈ Nat.toDigits 10 value) :
    character.isDigit = true :=
  Nat.isDigit_of_mem_toDigits (by decide) (by decide) member

/-- There is no sign in front of digits, whatever follows them. -/
theorem readSign_toDigits_append
    (value : Nat)
    (rest : List Char) :
    Double.readSign (Nat.toDigits 10 value ++ rest) = (false, Nat.toDigits 10 value ++ rest) := by
  obtain ⟨first, others, shape⟩ := List.exists_cons_of_ne_nil (Nat.toDigits_ne_nil (n := value))
  have isDigit : first.isDigit = true :=
    isDigit_of_mem_toDigits (shape ▸ List.mem_cons_self)
  rw [shape, List.cons_append]
  unfold Double.readSign
  split
  case h_1 following written =>
    exact absurd ((List.cons.inj written).1 ▸ isDigit) (by decide)
  case h_2 following written =>
    exact absurd ((List.cons.inj written).1 ▸ isDigit) (by decide)
  case h_3 =>
    rfl

theorem readSign_toDigits (value : Nat) :
    Double.readSign (Nat.toDigits 10 value) = (false, Nat.toDigits 10 value) :=
  List.append_nil (Nat.toDigits 10 value) ▸ readSign_toDigits_append value []

/-- The digits of an integer are read as that integer. -/
theorem integerOf?_integerNumeral (value : Int) :
    integerOf? (integerNumeral value) = some value := by
  have digits : (Nat.toDigits 10 value.natAbs).all Char.isDigit = true :=
    List.all_eq_true.mpr fun _ => isDigit_of_mem_toDigits
  have read : Double.digitsValue (Nat.toDigits 10 value.natAbs) = value.natAbs :=
    Nat.ofDigitChars_ten_toDigits
  by_cases negative : value < 0
  · have signed : Double.readSign (integerNumeral value) = (true, Nat.toDigits 10 value.natAbs) := by
      rw [integerNumeral, if_pos negative, Double.readSign]
    rw [integerOf?, signed, if_pos ⟨Nat.toDigits_ne_nil, digits⟩, read]
    exact congrArg some (show -(value.natAbs : Int) = value by omega)
  · have signed : Double.readSign (integerNumeral value) = (false, Nat.toDigits 10 value.natAbs) := by
      rw [integerNumeral, if_neg negative, readSign_toDigits]
    rw [integerOf?, signed, if_pos ⟨Nat.toDigits_ne_nil, digits⟩, read]
    exact congrArg some (show (value.natAbs : Int) = value by omega)

/-- Different integers are written differently. -/
theorem integerNumeral_injective
    {first second : Int}
    (same : integerNumeral first = integerNumeral second) :
    first = second :=
  Option.some.inj ((integerOf?_integerNumeral first).symm.trans
    ((congrArg integerOf? same).trans (integerOf?_integerNumeral second)))

/-- The text of an integer is its numeral. -/
theorem toList_integerText (value : Int) :
    (integerText value).toList = integerNumeral value :=
  String.toList_ofList

/-- Different integers have different texts. -/
theorem integerText_injective : Function.Injective integerText :=
  fun _ _ same => integerNumeral_injective (String.ofList_injective same)

/-- Integers that are told apart by nothing but the words in front of them are the same. -/
theorem append_integerText_inj
    {words : String}
    {first second : Int}
    (same : words ++ integerText first = words ++ integerText second) :
    first = second :=
  integerText_injective ((String.append_right_inj words).mp same)

/-- The text of an integer is its usual decimal text. -/
theorem integerText_eq_toString (value : Int) :
    integerText value = toString value := by
  cases value with
  | ofNat magnitude =>
      exact Nat.toString_eq_ofList_toDigits.symm
  | negSucc magnitude =>
      have digits : (magnitude + 1).repr = String.ofList (Nat.toDigits 10 (magnitude + 1)) :=
        Nat.repr_eq_ofList_toDigits
      have signed : toString (Int.negSucc magnitude) = String.ofList ['-'] ++ (magnitude + 1).repr :=
        rfl
      rw [signed, digits, ← String.ofList_append, integerText, integerNumeral,
        if_pos (Int.negSucc_lt_zero magnitude)]
      rfl

/-- The numeral of a count consists of its digits. -/
theorem integerNumeral_natCast (count : Nat) :
    integerNumeral count = Nat.toDigits 10 count :=
  if_neg (Int.not_lt.mpr (Int.natCast_nonneg count))

/-- Nothing but digits stands in the text of a count. -/
theorem isDigit_of_mem_integerText
    {count : Nat} :
    ∀ digit ∈ (integerText count).toList, digit.isDigit = true := by
  intro digit member
  rw [toList_integerText, integerNumeral_natCast] at member
  exact isDigit_of_mem_toDigits member

/-- A count is always written with some digit. -/
theorem integerText_natCast_ne_empty (count : Nat) :
    integerText count ≠ "" := by
  intro empty
  have noDigits := congrArg String.toList empty
  rw [toList_integerText, integerNumeral_natCast] at noDigits
  exact Nat.toDigits_ne_nil noDigits

/-- Whether a numeral may be written with a character. -/
def isNumeralCharacter (character : Char) : Bool :=
  character.isDigit || ['+', '-', '.', 'a', 'e', 'f', 'i', 'n'].contains character

theorem isNumeralCharacter_of_mem_toDigits
    (value : Nat) :
    ∀ character ∈ Nat.toDigits 10 value, isNumeralCharacter character = true := by
  intro character member
  rw [isNumeralCharacter, isDigit_of_mem_toDigits member, Bool.true_or]

theorem isNumeralCharacter_of_mem_zeros
    (count : Nat) :
    ∀ character ∈ List.replicate count '0', isNumeralCharacter character = true := by
  intro character member
  rw [List.eq_of_mem_replicate member]
  decide

theorem isNumeralCharacter_of_mem_integerNumeral
    (value : Int) :
    ∀ character ∈ integerNumeral value, isNumeralCharacter character = true := by
  unfold integerNumeral
  split
  · rw [List.forall_mem_cons]
    exact ⟨by decide, isNumeralCharacter_of_mem_toDigits value.natAbs⟩
  · exact isNumeralCharacter_of_mem_toDigits value.natAbs

namespace Decimal

theorem isNumeralCharacter_of_mem_significantDigits
    (decimal : Decimal) :
    ∀ character ∈ decimal.significantDigits, isNumeralCharacter character = true := by
  intro character member
  have kept := (List.dropWhile_sublist _).subset (List.mem_reverse.mp member)
  exact isNumeralCharacter_of_mem_toDigits _ character (List.mem_reverse.mp kept)

/-- The positional form of a decimal has the characters of numerals alone. -/
theorem isNumeralCharacter_of_mem_positional
    (decimal : Decimal) :
    ∀ character ∈ decimal.positional, isNumeralCharacter character = true := by
  have digits := decimal.isNumeralCharacter_of_mem_significantDigits
  dsimp only [positional]
  split
  · simp only [List.forall_mem_cons, List.forall_mem_append]
    exact ⟨by decide, by decide, isNumeralCharacter_of_mem_zeros _, digits⟩
  · simp only [List.forall_mem_cons, List.forall_mem_append]
    refine ⟨⟨fun character member => digits character (List.mem_of_mem_take member),
      isNumeralCharacter_of_mem_zeros _⟩, by decide, ?_⟩
    split
    · exact isNumeralCharacter_of_mem_zeros 1
    · exact fun character member => digits character (List.mem_of_mem_drop member)

theorem isNumeralCharacter_of_mem_exponential
    (decimal : Decimal) :
    ∀ character ∈ decimal.exponential, isNumeralCharacter character = true := by
  have digits := decimal.isNumeralCharacter_of_mem_significantDigits
  have exponent := isNumeralCharacter_of_mem_toDigits (decimal.pointPosition - 1).natAbs
  simp only [exponential, List.forall_mem_append, List.forall_mem_cons]
  refine ⟨?mantissa, by decide, ?sign, isNumeralCharacter_of_mem_zeros _, exponent⟩
  case mantissa =>
    split
    case h_1 first second rest shape =>
      simp only [shape, List.forall_mem_cons] at digits
      simp only [List.forall_mem_cons]
      exact ⟨digits.1, by decide, digits.2⟩
    case h_2 =>
      exact digits
  case sign =>
    split <;> decide

/-- A decimal is written with the characters of numerals in either form. -/
theorem isNumeralCharacter_of_mem_numeral
    (decimal : Decimal) :
    ∀ character ∈ decimal.numeral, isNumeralCharacter character = true := by
  unfold numeral
  split
  · exact decimal.isNumeralCharacter_of_mem_positional
  · exact decimal.isNumeralCharacter_of_mem_exponential

end Decimal

/-- A number is written with the characters of numerals, whether it is finite or not. -/
theorem Double.isNumeralCharacter_of_mem_numeral
    (value : Double) :
    ∀ character ∈ value.numeral, isNumeralCharacter character = true := by
  cases value with
  | nan =>
      exact List.all_eq_true.mp (by decide)
  | infinity negative =>
      cases negative <;> exact List.all_eq_true.mp (by decide)
  | finite negative units =>
      rw [numeral, List.forall_mem_append]
      constructor
      · cases negative <;> exact List.all_eq_true.mp (by decide)
      · split
        · exact List.all_eq_true.mp (by decide)
        · exact (shortestDecimal units).isNumeralCharacter_of_mem_numeral

end GitLanes
