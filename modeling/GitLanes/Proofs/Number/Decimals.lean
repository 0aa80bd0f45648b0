import GitLanes.Drawing.Rendering
import GitLanes.Proofs.Number.Halves
import GitLanes.Proofs.Number.Numerals
import GitLanes.Proofs.Text.Runs
import Mathlib.Algebra.Field.Rat
import Mathlib.Tactic.NormNum

namespace GitLanes

/-!
# Decimals of halves

An odd number of halves is written with the single decimal 5. It lies on the grid
of tenths, and no coarser grid has a point near enough: whole numbers are half a
unit away, and the neighbours of a double of this size lie nearer than that.
-/

/-- Multiplying by ten appends a zero. -/
theorem length_toDigits_mul_powerOfTen
    {value : Nat}
    (positive : 0 < value)
    (zeros : Nat) :
    (Nat.toDigits 10 (value * powerOfTen zeros)).length =
      (Nat.toDigits 10 value).length + zeros := by
  induction zeros with
  | zero =>
      rw [show powerOfTen 0 = 1 from rfl, Nat.mul_one, Nat.add_zero]
  | succ zeros inductionHypothesis =>
      have shape : value * powerOfTen (zeros + 1) = 10 * (value * powerOfTen zeros) + 0 := by
        rw [powerOfTen_add, show powerOfTen 1 = 10 from rfl]
        ring
      have positiveRest := Nat.mul_pos positive (powerOfTen_pos zeros)
      rw [shape, ← Nat.toDigits_append_toDigits (by decide) positiveRest (by decide),
        List.length_append, inductionHypothesis]
      rfl

/-- The first attempt that succeeds is the one that counts. -/
theorem findSome?_range_eq_some
    {α : Type}
    {attempt : Nat → Option α}
    {value : α}
    {position bound : Nat}
    (inRange : position < bound)
    (found : attempt position = some value)
    (earlier : ∀ before < position, attempt before = none) :
    (List.range bound).findSome? attempt = some value := by
  induction inRange with
  | refl =>
      have nothing : (List.range position).findSome? attempt = none :=
        List.findSome?_eq_none_iff.mpr fun before member =>
          earlier before (List.mem_range.mp member)
      rw [List.range_succ, List.findSome?_append, nothing, Option.none_or, List.findSome?_singleton,
        found]
  | step _ inductionHypothesis =>
      rw [List.range_succ, List.findSome?_append, inductionHypothesis, Option.some_or]

namespace Double

theorem decimalScale_pos : 0 < decimalScale :=
  powerOfTen_pos 400

theorem decimalScale_eq : decimalScale = powerOfTen 399 * 10 := by
  have ten : powerOfTen 1 = 10 := rfl
  rw [decimalScale, ← ten, ← powerOfTen_add]

/-- The width of a gap over the common denominator. -/
def scaledSpacing (units : Nat) : Nat :=
  spacing units * decimalScale

theorem scaledSpacing_pos (units : Nat) : 0 < scaledSpacing units :=
  Nat.mul_pos (spacing_pos units) decimalScale_pos

/-- The lower end of the interval lies below its count. -/
theorem roundingInterval_low_lt
    {units : Nat}
    (positive : 0 < units) :
    (roundingInterval units).low < scaled units := by
  have gap := spacing_pos units
  refine Nat.mul_lt_mul_of_pos_right (Nat.sub_lt (by omega) ?_) decimalScale_pos
  split_ifs <;> omega

/-- Below a count the interval reaches half a gap at most. -/
theorem scaled_le_roundingInterval_low (units : Nat) :
    scaled units ≤ (roundingInterval units).low + 2 * scaledSpacing units := by
  rw [scaled, scaledSpacing, roundingInterval, ← Nat.mul_assoc, ← Nat.add_mul]
  refine Nat.mul_le_mul_right decimalScale ?_
  split_ifs <;> omega

theorem roundingInterval_high_eq (units : Nat) :
    (roundingInterval units).high = scaled units + 2 * scaledSpacing units := by
  rw [scaled, scaledSpacing, roundingInterval, ← Nat.mul_assoc, ← Nat.add_mul]

/-- A number lies within the interval that rounds to it. -/
theorem contains_scaled
    {units : Nat}
    (positive : 0 < units) :
    (roundingInterval units).contains (scaled units) = true := by
  have aboveLow := roundingInterval_low_lt positive
  have high := roundingInterval_high_eq units
  have gap := scaledSpacing_pos units
  rw [RoundingInterval.contains]
  split_ifs
  · exact decide_eq_true (by omega)
  · exact decide_eq_true (by omega)

/-- More than two gaps away from a number nothing rounds to it. -/
theorem contains_eq_false
    {units point : Nat}
    (far :
      point + 2 * scaledSpacing units < scaled units ∨
        scaled units + 2 * scaledSpacing units < point) :
    (roundingInterval units).contains point = false := by
  have low := scaled_le_roundingInterval_low units
  have high := roundingInterval_high_eq units
  rw [RoundingInterval.contains]
  split_ifs
  · exact decide_eq_false (by omega)
  · exact decide_eq_false (by omega)

/-- A number that lies on a grid is written as the point of the grid that it is. -/
theorem decimalOnGrid?_eq_some
    {units digits : Nat}
    {exponent : Int}
    (positive : 0 < units)
    (onGrid : scaled units = digits * gridStep exponent) :
    decimalOnGrid? units exponent = some ⟨digits, exponent⟩ := by
  have step : 0 < gridStep exponent :=
    Nat.mul_pos (Nat.mul_pos (by decide) unitsPerOne_pos) (powerOfTen_pos _)
  have below : scaled units / gridStep exponent = digits := by
    rw [onGrid, Nat.mul_div_cancel _ step]
  have nearest : nearestQuotient (scaled units) (gridStep exponent) = digits := by
    rw [onGrid, nearestQuotient_mul digits step]
  have reached : (roundingInterval units).contains (digits * gridStep exponent) = true :=
    onGrid ▸ contains_scaled positive
  simp only [decimalOnGrid?, below, nearest, reached]
  cases (roundingInterval units).contains ((digits + 1) * gridStep exponent) <;> rfl

/-- No decimal of a grid is the text of a number that lies far away from all its points. -/
theorem decimalOnGrid?_eq_none
    {units : Nat}
    {exponent : Int}
    (far :
      ∀ count : Nat,
        count * gridStep exponent + 2 * scaledSpacing units < scaled units ∨
          scaled units + 2 * scaledSpacing units < count * gridStep exponent) :
    decimalOnGrid? units exponent = none := by
  simp only [decimalOnGrid?, contains_eq_false (far _)]

/-- A number of halves over the common denominator is that number of times one half. -/
theorem scaled_halves (halves : Nat) :
    scaled (halves * unitsPerHalf) = halves * scaled unitsPerHalf := by
  rw [scaled, scaled]
  ring

/-- On the grid of tenths a number of halves is written exactly. -/
theorem decimalOnGrid?_tenths
    {halves : Nat}
    (positive : 0 < halves) :
    decimalOnGrid? (halves * unitsPerHalf) (-1) = some ⟨5 * halves, -1⟩ := by
  have place : ((-1 : Int) + 400).toNat = 399 := rfl
  have step : 5 * gridStep (-1) = scaled unitsPerHalf := by
    rw [gridStep, unitsPerOne_eq, place, scaled, decimalScale_eq]
    generalize powerOfTen 399 = tenth
    ring
  refine decimalOnGrid?_eq_some (Nat.mul_pos positive unitsPerHalf_pos) ?_
  rw [scaled_halves, ← step, Nat.mul_left_comm, Nat.mul_assoc]

/-- Odd numbers of halves lie in the middle between whole numbers, beyond all that round to them. -/
theorem decimalOnGrid?_wholes
    {halves : Nat}
    (small : halves < powerOfTwo 53)
    (isOdd : halves % 2 = 1)
    (exponent : Nat) :
    decimalOnGrid? (halves * unitsPerHalf) exponent = none := by
  have margin : 2 * scaledSpacing (halves * unitsPerHalf) < scaled unitsPerHalf := by
    have narrow : scaledSpacing (halves * unitsPerHalf) ≤ unitsPerHalf * decimalScale :=
      Nat.mul_le_mul_right _ (Nat.le_of_dvd unitsPerHalf_pos (spacing_halves_dvd small))
    have positive := scaledSpacing_pos (halves * unitsPerHalf)
    rw [scaled, Nat.mul_assoc]
    omega
  have point (count : Nat) :
      count * gridStep exponent = 2 * (count * powerOfTen exponent) * scaled unitsPerHalf := by
    have place : ((exponent : Int) + 400).toNat = exponent + 400 := by omega
    rw [gridStep, unitsPerOne_eq, place, powerOfTen_add, scaled, decimalScale]
    ring
  refine decimalOnGrid?_eq_none fun count => ?_
  rw [point, scaled_halves]
  generalize scaled unitsPerHalf = half at margin
  generalize count * powerOfTen exponent = whole
  rcases Nat.lt_or_ge (2 * whole) halves with below | beyond
  · refine Or.inl ((Nat.add_lt_add_left margin _).trans_le ?_)
    rw [← Nat.succ_mul]
    exact Nat.mul_le_mul_right half below
  · refine Or.inr ((Nat.add_lt_add_left margin _).trans_le ?_)
    rw [← Nat.succ_mul]
    exact Nat.mul_le_mul_right half (by omega)

/-- There is one digit less in front of the point than there are digits of tenths. -/
theorem decimalPoint_halves
    {halves : Nat}
    (positive : 0 < halves) :
    decimalPoint (halves * unitsPerHalf) =
      ((Nat.toDigits 10 (5 * halves)).length : Int) - 1 := by
  have quotient :
      halves * unitsPerHalf * decimalScale / unitsPerOne = 5 * halves * powerOfTen 399 := by
    rw [unitsPerOne_eq, decimalScale_eq]
    generalize powerOfTen 399 = tenth
    refine Nat.div_eq_of_eq_mul_left (Nat.mul_pos Nat.two_pos unitsPerHalf_pos) ?_
    ring
  rw [decimalPoint, quotient, length_toDigits_mul_powerOfTen (by omega)]
  omega

/-- An odd number of halves has a single decimal. -/
theorem shortestDecimal_halves
    {halves : Nat}
    (small : halves < powerOfTwo 53)
    (isOdd : halves % 2 = 1) :
    shortestDecimal (halves * unitsPerHalf) = ⟨5 * halves, -1⟩ := by
  have digits : (Nat.toDigits 10 (5 * halves)).length ≤ 17 := by
    have bound : powerOfTwo 53 = 9007199254740992 := rfl
    exact (Nat.length_toDigits_le_iff (by decide) (by decide)).mpr (by omega)
  have nonempty : 0 < (Nat.toDigits 10 (5 * halves)).length := Nat.length_toDigits_pos
  rw [shortestDecimal, decimalPoint_halves (by omega)]
  generalize (Nat.toDigits 10 (5 * halves)).length = count at digits nonempty
  have found :
      (List.range 17).findSome? (fun further : Nat =>
          decimalOnGrid? (halves * unitsPerHalf) ((count : Int) - 1 - 1 - further)) =
        some ⟨5 * halves, -1⟩ := by
    refine findSome?_range_eq_some (show count - 1 < 17 by omega) ?_ ?_
    · have tenths : (count : Int) - 1 - 1 - (count - 1 : Nat) = -1 := by omega
      rw [tenths, decimalOnGrid?_tenths (by omega)]
    · intro further earlier
      have wholes : (count : Int) - 1 - 1 - further = (count - 2 - further : Nat) := by omega
      rw [wholes, decimalOnGrid?_wholes small isOdd]
  exact congrArg (Option.getD · ⟨0, 0⟩) found

end Double

/-- A single decimal of five is written after the whole digits and a point. -/
theorem Decimal.numeral_fiveTenths
    {whole : Nat}
    (small : whole < powerOfTen 16) :
    (⟨10 * whole + 5, -1⟩ : Decimal).numeral = Nat.toDigits 10 whole ++ ['.', '5'] := by
  rcases Nat.eq_zero_or_pos whole with rfl | positive
  · decide
  have written : Nat.toDigits 10 (10 * whole + 5) = Nat.toDigits 10 whole ++ ['5'] :=
    (Nat.toDigits_append_toDigits (by decide) positive (by decide)).symm
  have significant :
      (⟨10 * whole + 5, -1⟩ : Decimal).significantDigits = Nat.toDigits 10 whole ++ ['5'] := by
    rw [significantDigits, written, List.reverse_append, List.reverse_singleton,
      List.singleton_append, List.dropWhile_cons_of_neg (by decide), List.reverse_cons,
      List.reverse_reverse]
  have point :
      (⟨10 * whole + 5, -1⟩ : Decimal).pointPosition = (Nat.toDigits 10 whole).length := by
    simp only [pointPosition, written, List.length_append, List.length_singleton]
    omega
  have digits : (Nat.toDigits 10 whole).length ≤ 16 :=
    (Nat.length_toDigits_le_iff (by decide) (by decide)).mpr small
  have nonempty : 0 < (Nat.toDigits 10 whole).length := Nat.length_toDigits_pos
  rw [numeral, point, if_pos ⟨by omega, by omega⟩, positional, point, significant]
  dsimp only
  rw [if_neg (by omega), Int.toNat_natCast, List.take_left, List.drop_left, List.length_append,
    List.length_singleton, if_neg (by omega), Nat.sub_eq_zero_of_le (Nat.le_succ _),
    List.replicate_zero, List.append_nil]

namespace Double

/-- An even number of halves is an integer. -/
theorem toInt?_ofHalves_even (value : Int) : (ofHalves (2 * value)).toInt? = some value := by
  have units : (2 * value).natAbs * unitsPerHalf = value.natAbs * unitsPerOne := by
    rw [unitsPerOne_eq, Int.natAbs_mul]
    ring
  have sameSign : decide (2 * value < 0) = decide (value < 0) :=
    decide_eq_decide.mpr (by omega)
  rw [ofHalves, toInt?, units, if_pos (Nat.mul_mod_left _ _),
    Nat.mul_div_cancel _ unitsPerOne_pos, sameSign, signed_natAbs]

theorem toInt?_ofHalves_odd
    {halves : Int}
    (isOdd : halves % 2 = 1) :
    (ofHalves halves).toInt? = none := by
  have magnitude : halves.natAbs % 2 = 1 := by omega
  have rest : halves.natAbs * unitsPerHalf % unitsPerOne = unitsPerHalf := by
    rw [unitsPerOne_eq, Nat.mul_mod_mul_right, magnitude, Nat.one_mul]
  rw [ofHalves, toInt?, rest, if_neg (Nat.ne_of_gt unitsPerHalf_pos)]

/-- A whole number is written without a point. -/
theorem coordinate_ofHalves_even (value : Int) :
    (ofHalves (2 * value)).coordinate = integerNumeral value := by
  rw [coordinate, toInt?_ofHalves_even]

/-- An odd number of halves is written with a single decimal. -/
theorem coordinate_ofHalves_odd
    {halves : Int}
    (small : halves.natAbs < powerOfTwo 53)
    (isOdd : halves % 2 = 1) :
    (ofHalves halves).coordinate =
      (if halves < 0 then ['-'] else []) ++
        (Nat.toDigits 10 (halves.natAbs / 2) ++ ['.', '5']) := by
  have magnitude : halves.natAbs % 2 = 1 := by omega
  have nonzero : halves.natAbs * unitsPerHalf ≠ 0 :=
    Nat.ne_of_gt (Nat.mul_pos (by omega) unitsPerHalf_pos)
  have tenfold : 5 * halves.natAbs = 10 * (halves.natAbs / 2) + 5 := by omega
  have wholeSmall : halves.natAbs / 2 < powerOfTen 16 := by
    have binary : powerOfTwo 53 = 9007199254740992 := rfl
    have decimal : powerOfTen 16 = 10000000000000000 := rfl
    omega
  rw [coordinate, toInt?_ofHalves_odd isOdd, ofHalves]
  dsimp only
  rw [numeral, if_neg nonzero, shortestDecimal_halves small magnitude, tenfold,
    Decimal.numeral_fiveTenths wholeSmall]
  simp only [decide_eq_true_eq]

end Double

/-! The exact values of texts, before any rounding. -/

/-- The exact value of a decimal. -/
def Decimal.value (decimal : Decimal) : ℚ :=
  decimal.digits * 10 ^ decimal.exponent

theorem Decimal.value_whole (digits : Nat) : (⟨digits, 0⟩ : Decimal).value = digits := by
  rw [value, zpow_zero, mul_one]

theorem Decimal.value_fiveTenths (whole : Nat) :
    (⟨10 * whole + 5, -1⟩ : Decimal).value = whole + 1 / 2 := by
  rw [value, zpow_neg_one]
  push_cast
  ring

/-- The rational number that a text denotes: a decimal with or without a sign, not rounded. -/
def rationalOf? (text : List Char) : Option ℚ :=
  (Double.readDecimal? (Double.readSign text).2).map fun decimal =>
    if (Double.readSign text).1 then -decimal.value else decimal.value

/-- A text with a minus sign denotes the negative of what it denotes without. -/
theorem rationalOf?_signed
    {negative : Prop}
    [Decidable negative]
    {magnitude : List Char}
    {decimal : Decimal}
    (unsigned : Double.readSign magnitude = (false, magnitude))
    (read : Double.readDecimal? magnitude = some decimal) :
    rationalOf? ((if negative then ['-'] else []) ++ magnitude) =
      some (if negative then -decimal.value else decimal.value) := by
  split_ifs
  · have signed : Double.readSign ('-' :: magnitude) = (true, magnitude) := rfl
    simp only [List.singleton_append, rationalOf?, signed, read, Option.map_some, if_true]
  · simp only [List.nil_append, rationalOf?, unsigned, read, Option.map_some, Bool.false_eq_true,
      if_false]

theorem ite_neg_natAbs (value : Int) :
    (if value < 0 then -(value.natAbs : ℚ) else value.natAbs) = value := by
  have signed := congrArg (Int.cast (R := ℚ)) (Double.signed_natAbs value)
  rw [Double.signed, apply_ite Int.cast] at signed
  simpa only [decide_eq_true_eq, Int.cast_neg, Int.cast_natCast] using signed

theorem readDecimal?_wholes (value : Nat) :
    Double.readDecimal? (Nat.toDigits 10 value) = some ⟨value, 0⟩ := by
  have digits : ∀ digit ∈ Nat.toDigits 10 value, digit.isDigit = true :=
    fun _ => isDigit_of_mem_toDigits
  have read : Double.digitsValue (Nat.toDigits 10 value ++ []) = value := by
    rw [List.append_nil]
    exact Nat.ofDigitChars_ten_toDigits
  simp only [Double.readDecimal?, List.takeWhile_eq_self_iff.mpr digits,
    List.dropWhile_eq_nil_iff.mpr digits, Nat.toDigits_ne_nil, false_and, if_false, read]
  rfl

/-- Digits in front of a point and a five are read as half a unit more. -/
theorem readDecimal?_fiveTenths (whole : Nat) :
    Double.readDecimal? (Nat.toDigits 10 whole ++ ['.', '5']) = some ⟨10 * whole + 5, -1⟩ := by
  have digits : ∀ digit ∈ Nat.toDigits 10 whole, digit.isDigit = true :=
    fun _ => isDigit_of_mem_toDigits
  have point : ∀ next ∈ ['.', '5'].head?, next.isDigit = false := by
    rintro next ⟨⟩
    rfl
  have read : Double.digitsValue (Nat.toDigits 10 whole ++ ['5']) = 10 * whole + 5 := by
    rw [Double.digitsValue, Nat.ofDigitChars_append, Nat.ofDigitChars_ten_toDigits]
    rfl
  have decimals : ['5'].takeWhile Char.isDigit = ['5'] := rfl
  simp only [Double.readDecimal?, takeWhile_run digits point, dropWhile_run digits point, decimals,
    Nat.toDigits_ne_nil, false_and, if_false, read]
  rfl

theorem rationalOf?_integerNumeral (value : Int) :
    rationalOf? (integerNumeral value) = some (value : ℚ) := by
  have signed :
      integerNumeral value =
        (if value < 0 then ['-'] else []) ++ Nat.toDigits 10 value.natAbs := by
    rw [integerNumeral]
    split_ifs <;> rfl
  rw [signed, rationalOf?_signed (readSign_toDigits _) (readDecimal?_wholes _),
    Decimal.value_whole, ite_neg_natAbs]

/-- What is written of a number of halves is its exact value. -/
theorem rationalOf?_coordinate_ofHalves
    {halves : Int}
    (small : halves.natAbs < powerOfTwo 53) :
    rationalOf? (Double.ofHalves halves).coordinate = some (halves / 2 : ℚ) := by
  rcases Int.emod_two_eq_zero_or_one halves with isEven | isOdd
  · obtain ⟨value, rfl⟩ := Int.dvd_of_emod_eq_zero isEven
    rw [Double.coordinate_ofHalves_even, rationalOf?_integerNumeral]
    push_cast
    congr 1
    ring
  · have magnitude : ((halves.natAbs / 2 : Nat) + 1 / 2 : ℚ) = halves.natAbs / 2 := by
      have parts : halves.natAbs = 2 * (halves.natAbs / 2) + 1 := by omega
      generalize halves.natAbs / 2 = whole at parts
      rw [parts]
      push_cast
      ring
    rw [Double.coordinate_ofHalves_odd small isOdd,
      rationalOf?_signed (readSign_toDigits_append _ _) (readDecimal?_fiveTenths _),
      Decimal.value_fiveTenths, magnitude, ← neg_div, ← ite_div, ite_neg_natAbs]

end GitLanes
