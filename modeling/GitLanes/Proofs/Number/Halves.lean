import GitLanes.Proofs.Number.Rounding

namespace GitLanes

/-!
# Halves of integers

Half of an integer with at most 53 binary digits is a double, and so is the sum
of two such numbers as long as it has no more digits itself. So arithmetic on
them is exact.
-/

namespace Double

/-- The count of units that make up one half. -/
def unitsPerHalf : Nat := powerOfTwo 1073

/-- The number that is half of an integer. -/
def ofHalves (halves : Int) : Double :=
  .finite (decide (halves < 0)) (halves.natAbs * unitsPerHalf)

theorem unitsPerOne_eq : unitsPerOne = 2 * unitsPerHalf := by
  have two : powerOfTwo 1 = 2 := rfl
  rw [unitsPerOne, unitsPerHalf, ← two, ← powerOfTwo_add]

theorem unitsPerHalf_pos : 0 < unitsPerHalf :=
  powerOfTwo_pos 1073

theorem unitsPerOne_pos : 0 < unitsPerOne :=
  powerOfTwo_pos 1074

/-- A small number of halves has at most 53 binary digits, and then zeros. -/
theorem log2_mul_unitsPerHalf_lt
    {halves : Nat}
    (small : halves < powerOfTwo 53) :
    (halves * unitsPerHalf).log2 < 53 + 1073 :=
  log2_mul_powerOfTwo_lt (by decide) small 1073

/-- Between small numbers of halves the gap divides one half. -/
theorem spacing_halves_dvd
    {halves : Nat}
    (small : halves < powerOfTwo 53) :
    spacing (halves * unitsPerHalf) ∣ unitsPerHalf := by
  have digits := log2_mul_unitsPerHalf_lt small
  exact powerOfTwo_dvd_powerOfTwo (by omega)

theorem halves_lt_overflowUnits
    {halves : Nat}
    (small : halves < powerOfTwo 53) :
    halves * unitsPerHalf < overflowUnits := by
  have digits := log2_mul_unitsPerHalf_lt small
  exact lt_powerOfTwo_of_log2_lt (by omega)

/-- A quotient of units that is a whole number of halves is not rounded. -/
theorem ofUnits_halves
    {halves denominator : Nat}
    (negative : Bool)
    (small : halves < powerOfTwo 53)
    (positive : 0 < denominator) :
    ofUnits negative (halves * unitsPerHalf * denominator) denominator =
      .finite negative (halves * unitsPerHalf) :=
  ofUnits_mul negative ((spacing_halves_dvd small).trans (Nat.dvd_mul_left _ _))
    (halves_lt_overflowUnits small) positive

/-- A small integer is represented exactly. -/
theorem ofInt_eq_ofHalves
    {value : Int}
    (small : (2 * value).natAbs < powerOfTwo 53) :
    ofInt value = ofHalves (2 * value) := by
  have sameSign : decide (value < 0) = decide (2 * value < 0) :=
    decide_eq_decide.mpr (by omega)
  have sameUnits : value.natAbs * unitsPerOne = (2 * value).natAbs * unitsPerHalf * 1 := by
    rw [unitsPerOne_eq, Int.natAbs_mul]
    ring
  rw [ofInt, sameUnits, ofUnits_halves _ small Nat.one_pos, sameSign, ofHalves]

/-- Half of a small integer is represented exactly. -/
theorem halfOfInt_eq_ofHalves
    {value : Int}
    (small : value.natAbs < powerOfTwo 53) :
    halfOfInt value = ofHalves value := by
  have sameUnits : value.natAbs * unitsPerOne = value.natAbs * unitsPerHalf * 2 := by
    rw [unitsPerOne_eq]
    ring
  rw [halfOfInt, sameUnits, ofUnits_halves _ small Nat.two_pos, ofHalves]

/-- An integer is its sign and its magnitude. -/
theorem signed_natAbs (value : Int) :
    signed (decide (value < 0)) value.natAbs = value := by
  rw [signed]
  split_ifs with negative <;> rw [decide_eq_true_eq] at negative <;> omega

theorem signed_mul
    (negative : Bool)
    (count unit : Nat) :
    signed negative (count * unit) = signed negative count * unit := by
  cases negative with
  | true => exact (congrArg Neg.neg (Int.natCast_mul count unit)).trans (Int.neg_mul _ _).symm
  | false => exact Int.natCast_mul count unit

/-- The sum of two halves is exact if it has no more digits than a double. -/
theorem ofHalves_add
    {left right : Int}
    (small : (left + right).natAbs < powerOfTwo 53) :
    (ofHalves left).add (ofHalves right) = ofHalves (left + right) := by
  have positive : 0 < (unitsPerHalf : Int) := Int.natCast_pos.mpr unitsPerHalf_pos
  have opposite : (left * unitsPerHalf + right * unitsPerHalf = 0) ↔ left + right = 0 := by
    rw [← Int.add_mul, Int.mul_eq_zero, or_iff_left (Int.ne_of_gt positive)]
  rw [ofHalves, ofHalves, add, signed_mul, signed_mul, signed_natAbs, signed_natAbs]
  split_ifs with isZero
  · -- Two halves that cancel are not both negative, so their sum is the positive zero.
    have cancel := opposite.mp isZero
    have notBoth : (decide (left < 0) && decide (right < 0)) = false := by
      rw [Bool.and_eq_false_iff, decide_eq_false_iff_not, decide_eq_false_iff_not]
      omega
    rw [notBoth, cancel, ofHalves, Int.natAbs_zero, Nat.zero_mul]
    rfl
  · have sameSign :
        decide (left * unitsPerHalf + right * unitsPerHalf < 0) = decide (left + right < 0) := by
      rw [decide_eq_decide, ← Int.add_mul, Int.mul_neg_iff]
      omega
    have sameUnits :
        (left * unitsPerHalf + right * unitsPerHalf : Int).natAbs =
          (left + right).natAbs * unitsPerHalf * 1 := by
      rw [← Int.add_mul, Int.natAbs_mul, Int.natAbs_natCast, Nat.mul_one]
    rw [sameSign, sameUnits, ofUnits_halves _ small Nat.one_pos, ofHalves]

end Double

end GitLanes
