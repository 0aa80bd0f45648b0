import GitLanes.Number.Quantity
import Mathlib.Tactic.Ring
import Mathlib.Tactic.SplitIfs

namespace GitLanes

/-!
# Rounding of integers

A count with at most 53 significant binary digits is rounded to itself. Any other
moves by no more than the gap between its neighbours, and it reaches a power of
two exactly from halfway between that power and the neighbour below it. So it can
be told from an integer alone whether it has a finite double next to it.
-/

theorem powerOfTwo_le_powerOfTwo
    {first second : Nat}
    (atMost : first ≤ second) :
    powerOfTwo first ≤ powerOfTwo second :=
  Nat.pow_le_pow_right (by decide) atMost

theorem powerOfTwo_dvd_powerOfTwo
    {first second : Nat}
    (atMost : first ≤ second) :
    powerOfTwo first ∣ powerOfTwo second :=
  Nat.pow_dvd_pow 2 atMost

/-- A count is at least any power of two up to its binary logarithm. -/
theorem powerOfTwo_le_of_le_log2
    {exponent units : Nat}
    (positive : 0 < exponent)
    (reached : exponent ≤ units.log2) :
    powerOfTwo exponent ≤ units := by
  have nonzero : units ≠ 0 := by
    rintro rfl
    rw [Nat.log2_zero] at reached
    omega
  exact (Nat.le_log2 nonzero).mp reached

theorem lt_powerOfTwo_of_log2_lt
    {units exponent : Nat}
    (below : units.log2 < exponent) :
    units < powerOfTwo exponent :=
  calc units
    _ < powerOfTwo (units.log2 + 1) := Nat.lt_log2_self
    _ ≤ powerOfTwo exponent := powerOfTwo_le_powerOfTwo below

theorem log2_lt_of_lt_powerOfTwo
    {units exponent : Nat}
    (positive : 0 < exponent)
    (small : units < powerOfTwo exponent) :
    units.log2 < exponent := by
  by_contra reached
  exact Nat.not_lt.mpr (powerOfTwo_le_of_le_log2 positive (Nat.not_lt.mp reached)) small

/-- A power of two adds no more binary digits than its exponent. -/
theorem log2_mul_powerOfTwo_lt
    {units digits : Nat}
    (positive : 0 < digits)
    (small : units < powerOfTwo digits)
    (exponent : Nat) :
    (units * powerOfTwo exponent).log2 < digits + exponent := by
  refine log2_lt_of_lt_powerOfTwo (by omega) ?_
  rw [powerOfTwo_add]
  exact Nat.mul_lt_mul_of_pos_right small (powerOfTwo_pos exponent)

namespace Double

/-- Rounding to the nearest integer does not go below the quotient. -/
theorem div_le_nearestQuotient
    (numerator denominator : Nat) :
    numerator / denominator ≤ nearestQuotient numerator denominator := by
  unfold nearestQuotient
  dsimp only
  split_ifs <;> omega

/-- Rounding to the nearest integer goes up by one at most. -/
theorem nearestQuotient_le
    (numerator denominator : Nat) :
    nearestQuotient numerator denominator ≤ numerator / denominator + 1 := by
  unfold nearestQuotient
  dsimp only
  split_ifs <;> omega

/-- A quotient that is an integer is not rounded. -/
theorem nearestQuotient_mul
    (quotient : Nat)
    {denominator : Nat}
    (positive : 0 < denominator) :
    nearestQuotient (quotient * denominator) denominator = quotient := by
  simp only [nearestQuotient, Nat.mul_div_cancel _ positive, Nat.mul_mod_left, Nat.mul_zero]
  exact if_pos positive

/-- An even integer is reached from halfway between it and the one before it. -/
theorem nearestQuotient_lt_iff
    {numerator denominator bound : Nat}
    (positive : 0 < denominator)
    (isEven : bound % 2 = 0) :
    nearestQuotient numerator denominator < bound ↔
      2 * numerator < denominator * (2 * bound - 1) := by
  have atLeast := div_le_nearestQuotient numerator denominator
  have atMost := nearestQuotient_le numerator denominator
  have shape := Nat.div_add_mod numerator denominator
  have restBound := Nat.mod_lt numerator positive
  rcases Nat.lt_trichotomy (numerator / denominator + 1) bound with below | isNext | beyond
  · have wide : denominator * (2 * (numerator / denominator + 1)) ≤ denominator * (2 * bound - 1) :=
      Nat.mul_le_mul_left denominator (by omega)
    have expanded :
        denominator * (2 * (numerator / denominator + 1)) =
          2 * (denominator * (numerator / denominator)) + 2 * denominator := by
      ring
    constructor <;> intro _ <;> omega
  · have expanded :
        denominator * (2 * (numerator / denominator + 1) - 1) =
          2 * (denominator * (numerator / denominator)) + denominator := by
      rw [show 2 * (numerator / denominator + 1) - 1 = 2 * (numerator / denominator) + 1 by omega]
      ring
    rw [← isNext, expanded, nearestQuotient]
    split_ifs <;> omega
  · have narrow : denominator * (2 * bound - 1) ≤ denominator * (2 * (numerator / denominator)) :=
      Nat.mul_le_mul_left denominator (by omega)
    have expanded :
        denominator * (2 * (numerator / denominator)) =
          2 * (denominator * (numerator / denominator)) := by
      ring
    constructor <;> intro _ <;> omega

/-! Rounding to a representable count, from below a power of two. -/

theorem spacing_pos (units : Nat) : 0 < spacing units :=
  powerOfTwo_pos _

/-- Rounding to a representable count goes up by one gap at most. -/
theorem nearestUnits_le
    (numerator denominator : Nat) :
    nearestUnits numerator denominator ≤
      numerator / denominator + spacing (numerator / denominator) := by
  rw [nearestUnits]
  generalize spacing (numerator / denominator) = gap
  have rounded := nearestQuotient_le numerator (denominator * gap)
  rw [← Nat.div_div_eq_div_mul] at rounded
  calc nearestQuotient numerator (denominator * gap) * gap
    _ ≤ (numerator / denominator / gap + 1) * gap := Nat.mul_le_mul_right gap rounded
    _ = numerator / denominator / gap * gap + gap := Nat.succ_mul _ _
    _ ≤ numerator / denominator + gap := Nat.add_le_add_right (Nat.div_mul_le_self _ _) gap

/-- Rounding does not fall below the power of two that a count has reached. -/
theorem powerOfTwo_le_nearestUnits
    {numerator denominator : Nat}
    (large : 52 ≤ (numerator / denominator).log2) :
    powerOfTwo (numerator / denominator).log2 ≤ nearestUnits numerator denominator := by
  have reached := powerOfTwo_le_of_le_log2 (by omega) (le_refl (numerator / denominator).log2)
  have split :
      powerOfTwo (numerator / denominator).log2 =
        powerOfTwo 52 * spacing (numerator / denominator) := by
    rw [spacing, ← powerOfTwo_add]
    congr 1
    omega
  have gapPositive := spacing_pos (numerator / denominator)
  rw [split] at reached ⊢
  rw [nearestUnits]
  generalize spacing (numerator / denominator) = gap at reached gapPositive ⊢
  have rounded := div_le_nearestQuotient numerator (denominator * gap)
  rw [← Nat.div_div_eq_div_mul] at rounded
  exact Nat.mul_le_mul_right gap
    (((Nat.le_div_iff_mul_le gapPositive).mpr reached).trans rounded)

/-- A count that is a multiple of its own gap is the nearest one to itself. -/
theorem nearestUnits_mul
    {units denominator : Nat}
    (representable : spacing units ∣ units)
    (positive : 0 < denominator) :
    nearestUnits (units * denominator) denominator = units := by
  rw [nearestUnits, Nat.mul_div_cancel _ positive]
  have gapPositive := spacing_pos units
  generalize spacing units = gap at representable gapPositive ⊢
  obtain ⟨quotient, rfl⟩ := representable
  have regrouped : gap * quotient * denominator = quotient * (denominator * gap) := by
    ring
  rw [regrouped, nearestQuotient_mul quotient (Nat.mul_pos positive gapPositive), Nat.mul_comm]

/-- A power of two is reached from halfway between it and the neighbour below it. -/
theorem nearestUnits_lt_powerOfTwo_iff
    (exponent : Nat)
    {numerator denominator : Nat}
    (positive : 0 < denominator) :
    nearestUnits numerator denominator < powerOfTwo (54 + exponent) ↔
      numerator < denominator * (powerOfTwo (54 + exponent) - powerOfTwo exponent) := by
  have doubled : powerOfTwo (54 + exponent) = 2 * powerOfTwo (53 + exponent) :=
    powerOfTwo_add 1 (53 + exponent) ▸ congrArg powerOfTwo (by omega)
  have gapBelow : powerOfTwo (53 + exponent) = powerOfTwo 53 * powerOfTwo exponent :=
    powerOfTwo_add 53 exponent
  have reached := Nat.div_mul_le_self numerator denominator
  have notReached := Nat.lt_mul_div_succ numerator positive
  have positiveGap := powerOfTwo_pos exponent
  rcases Nat.lt_trichotomy (numerator / denominator).log2 (53 + exponent) with
    below | isLast | beyond
  · -- Far below the power, the whole gap does not make up for the distance.
    have small := lt_powerOfTwo_of_log2_lt below
    have narrow : spacing (numerator / denominator) ≤ powerOfTwo exponent :=
      powerOfTwo_le_powerOfTwo (by omega)
    have rounded := nearestUnits_le numerator denominator
    have fits : powerOfTwo exponent ≤ powerOfTwo (53 + exponent) :=
      powerOfTwo_le_powerOfTwo (Nat.le_add_left _ _)
    refine iff_of_true (by omega) (notReached.trans_le ?_)
    exact Nat.mul_le_mul_left denominator (by omega)
  · -- Next to the power, counts are multiples of one gap, and the power is an even one.
    have gap : spacing (numerator / denominator) = 2 * powerOfTwo exponent := by
      rw [spacing, isLast]
      exact powerOfTwo_add 1 exponent ▸ congrArg powerOfTwo (by omega)
    have multiple : powerOfTwo (54 + exponent) = powerOfTwo 53 * (2 * powerOfTwo exponent) := by
      rw [doubled, gapBelow, Nat.mul_left_comm]
    have halfway :
        denominator * (2 * powerOfTwo exponent) * (2 * powerOfTwo 53 - 1) =
          2 * (denominator * (powerOfTwo (54 + exponent) - powerOfTwo exponent)) := by
      have difference :
          powerOfTwo (54 + exponent) - powerOfTwo exponent =
            (2 * powerOfTwo 53 - 1) * powerOfTwo exponent := by
        rw [Nat.sub_mul, Nat.one_mul, doubled, gapBelow, Nat.mul_assoc]
      rw [difference]
      ring
    rw [nearestUnits, gap, multiple, Nat.mul_lt_mul_right (by omega),
      nearestQuotient_lt_iff (Nat.mul_pos positive (by omega)) (by decide), halfway, ← multiple]
    omega
  · -- Beyond the power, rounding keeps what was reached.
    have atLeast : powerOfTwo (54 + exponent) ≤ powerOfTwo (numerator / denominator).log2 :=
      powerOfTwo_le_powerOfTwo (by omega)
    have kept : powerOfTwo (numerator / denominator).log2 ≤ nearestUnits numerator denominator :=
      powerOfTwo_le_nearestUnits (by omega)
    have large : powerOfTwo (54 + exponent) ≤ numerator / denominator :=
      powerOfTwo_le_of_le_log2 (by omega) (by omega)
    refine iff_of_false (Nat.not_lt.mpr (atLeast.trans kept)) (Nat.not_lt.mpr ?_)
    calc denominator * (powerOfTwo (54 + exponent) - powerOfTwo exponent)
      _ ≤ denominator * (numerator / denominator) :=
          Nat.mul_le_mul_left denominator ((Nat.sub_le _ _).trans large)
      _ ≤ numerator := Nat.mul_div_le numerator denominator

/-- The least integer to which no finite double is nearest. -/
def roundingLimit : Nat := powerOfTwo 1024 - powerOfTwo 970

/-- A quotient of units is finite exactly below the midpoint behind the largest number. -/
theorem isFinite_ofUnits_iff
    {negative : Bool}
    {numerator denominator : Nat}
    (positive : 0 < denominator) :
    (ofUnits negative numerator denominator).isFinite = true ↔
      numerator < denominator * (roundingLimit * unitsPerOne) := by
  have limit :
      powerOfTwo (54 + 2044) - powerOfTwo 2044 = roundingLimit * unitsPerOne := by
    rw [roundingLimit, unitsPerOne, Nat.sub_mul, ← powerOfTwo_add, ← powerOfTwo_add]
  rw [← limit, ← nearestUnits_lt_powerOfTwo_iff 2044 positive, ofUnits]
  split_ifs with inRange
  · exact iff_of_true rfl inRange
  · exact iff_of_false Bool.false_ne_true inRange

/-- An integer is finite exactly if its magnitude is below the limit of rounding. -/
theorem isFinite_ofInt_iff {value : Int} :
    (ofInt value).isFinite = true ↔ value.natAbs < roundingLimit := by
  rw [ofInt, isFinite_ofUnits_iff Nat.one_pos, Nat.one_mul]
  exact Nat.mul_lt_mul_right (powerOfTwo_pos 1074)

/-- Half of an integer is finite exactly if the integer is below twice the limit. -/
theorem isFinite_halfOfInt_iff {value : Int} :
    (halfOfInt value).isFinite = true ↔ value.natAbs < 2 * roundingLimit := by
  rw [halfOfInt, isFinite_ofUnits_iff Nat.two_pos, ← Nat.mul_assoc]
  exact Nat.mul_lt_mul_right (powerOfTwo_pos 1074)

/-- A count that is a multiple of its own gap is a number without any rounding. -/
theorem ofUnits_mul
    {units denominator : Nat}
    (negative : Bool)
    (representable : spacing units ∣ units)
    (inRange : units < overflowUnits)
    (positive : 0 < denominator) :
    ofUnits negative (units * denominator) denominator = .finite negative units := by
  rw [ofUnits, nearestUnits_mul representable positive]
  exact if_pos inRange

end Double

namespace Quantity

/-- An integer becomes a double as long as some finite one is nearest to it. -/
theorem doubleOfInt_eq_ite (value : Int) :
    doubleOfInt value =
      if value.natAbs < Double.roundingLimit then
        .ok (Double.ofInt value)
      else
        .error .integerTooLarge := by
  simp only [doubleOfInt, Double.isFinite_ofInt_iff]

/-- An integer can be twice as large if only half of it becomes a double. -/
theorem half_int_eq_ite (value : Int) :
    (Quantity.int value).half =
      if value.natAbs < 2 * Double.roundingLimit then
        .ok (Double.halfOfInt value)
      else
        .error .quotientTooLarge := by
  simp only [half, Double.isFinite_halfOfInt_iff]

end Quantity

end GitLanes
