import Formula.Proofs.Binary.Decimal
import Mathlib.Algebra.Order.Field.Power
import Mathlib.Algebra.Order.Field.Rat
import Mathlib.Data.Nat.Log
import Mathlib.Tactic.FieldSimp
import Mathlib.Tactic.NormNum
import Mathlib.Tactic.Ring

/-!
# Rounding and order

Rounding keeps the order of quotients. So numbers of a format are ordered like
their magnitudes, and a number is not below another one if it is read from a
decimal that is not below the other's.
-/

namespace Formula

namespace Binary

variable {format : FloatFormat}

/-! ## Quotients -/

/-- The nearest integer is the quotient, or one more if the remainder is more
than half the denominator, or half of it beside an odd quotient. -/
theorem divideToNearest_eq (numerator denominator : Nat) :
    divideToNearest numerator denominator =
      numerator / denominator +
        if denominator < 2 * (numerator % denominator) ∨
            denominator = 2 * (numerator % denominator) ∧
              numerator / denominator % 2 = 1 then 1
        else 0 := by
  unfold divideToNearest
  dsimp only
  split
  · rename_i isBelow
    have below := Nat.compare_eq_lt.1 isBelow
    rw [if_neg (by omega), Nat.add_zero]
  · rename_i isAbove
    have above := Nat.compare_eq_gt.1 isAbove
    rw [if_pos (.inl above)]
  · rename_i isHalf
    have half := Nat.compare_eq_eq.1 isHalf
    split
    · rw [if_neg (by omega), Nat.add_zero]
    · rw [if_pos (by omega)]

theorem div_le_divideToNearest (numerator denominator : Nat) :
    numerator / denominator ≤ divideToNearest numerator denominator := by
  rw [divideToNearest_eq]
  exact Nat.le_add_right _ _

theorem divideToNearest_le (numerator denominator : Nat) :
    divideToNearest numerator denominator ≤ numerator / denominator + 1 := by
  rw [divideToNearest_eq]
  split
  · exact Nat.le_refl _
  · exact Nat.le_add_right _ _

theorem divideToNearest_mono {numerator other : Nat}
    (notAbove : numerator ≤ other) (denominator : Nat) :
    divideToNearest numerator denominator ≤
      divideToNearest other denominator := by
  have quotients : numerator / denominator ≤ other / denominator :=
    Nat.div_le_div_right notAbove
  rcases Nat.lt_or_eq_of_le quotients with isLess | same
  · calc
      divideToNearest numerator denominator ≤ numerator / denominator + 1 :=
        divideToNearest_le _ _
      _ ≤ other / denominator := isLess
      _ ≤ divideToNearest other denominator := div_le_divideToNearest _ _
  · have first := Nat.div_add_mod numerator denominator
    have second := Nat.div_add_mod other denominator
    rw [same] at first
    rw [divideToNearest_eq, divideToNearest_eq, same]
    generalize denominator * (other / denominator) = whole at first second
    split <;> split <;> omega

/-! ## Magnitudes -/

theorem log2_div_mono {numerator other : Nat} (notAbove : numerator ≤ other)
    (denominator : Nat) :
    (numerator / denominator).log2 ≤ (other / denominator).log2 := by
  rw [Nat.log2_eq_log_two, Nat.log2_eq_log_two]
  exact Nat.log_mono_right (Nat.div_le_div_right notAbove)

/-- A quotient without its excess bits has no more than a mantissa. -/
theorem div_pow_excess_lt (quotient fractionBits : Nat) :
    quotient / 2 ^ (quotient.log2 - fractionBits) <
      2 ^ (fractionBits + 1) := by
  refine (Nat.div_lt_iff_lt_mul (Nat.two_pow_pos _)).2 ?_
  calc
    quotient < 2 ^ (quotient.log2 + 1) := Nat.lt_log2_self
    _ ≤ 2 ^ (fractionBits + 1 + (quotient.log2 - fractionBits)) :=
      Nat.pow_le_pow_right (by decide) (by omega)
    _ = 2 ^ (fractionBits + 1) * 2 ^ (quotient.log2 - fractionBits) :=
      Nat.pow_add _ _ _

/-- If it has excess bits, it has the leading bit of a mantissa. -/
theorem le_div_pow_excess (quotient : Nat) {fractionBits : Nat}
    (exceeds : fractionBits < quotient.log2) :
    2 ^ fractionBits ≤ quotient / 2 ^ (quotient.log2 - fractionBits) := by
  have notNone : quotient ≠ 0 := by
    intro isZero
    rw [isZero] at exceeds
    exact Nat.not_lt_zero _ exceeds
  refine (Nat.le_div_iff_mul_le (Nat.two_pow_pos _)).2 ?_
  calc
    2 ^ fractionBits * 2 ^ (quotient.log2 - fractionBits) =
        2 ^ (fractionBits + (quotient.log2 - fractionBits)) :=
      (Nat.pow_add _ _ _).symm
    _ = 2 ^ quotient.log2 := by
      rw [Nat.add_sub_cancel' (Nat.le_of_lt exceeds)]
    _ ≤ quotient := Nat.log2_self_le notNone

theorem nearestMagnitude_mono_numerator (format : FloatFormat)
    {numerator other : Nat} (notAbove : numerator ≤ other)
    (denominator : Nat) :
    nearestMagnitude format numerator denominator ≤
      nearestMagnitude format other denominator := by
  have logarithms := log2_div_mono notAbove denominator
  have mantissa := div_pow_excess_lt (numerator / denominator)
    format.fractionBits
  have quotient (value excess : Nat) :
      value / (denominator <<< excess) = value / denominator / 2 ^ excess := by
    rw [Nat.shiftLeft_eq, Nat.div_div_eq_div_mul]
  unfold nearestMagnitude
  generalize first :
    (numerator / denominator).log2 - format.fractionBits = excess at *
  generalize second :
    (other / denominator).log2 - format.fractionBits = otherExcess at *
  dsimp only
  rcases Nat.lt_or_ge excess otherExcess with isLess | notLess
  · -- The carry of the smaller quotient reaches the next exponent at most, at
    -- which the greater one has its leading bit already.
    have exceeds : format.fractionBits < (other / denominator).log2 := by
      omega
    have leading := le_div_pow_excess (other / denominator) exceeds
    rw [second] at leading
    calc
      excess <<< format.fractionBits +
            divideToNearest numerator (denominator <<< excess) ≤
          excess * 2 ^ format.fractionBits + 2 ^ (format.fractionBits + 1) := by
        have rounded := divideToNearest_le numerator (denominator <<< excess)
        rw [quotient] at rounded
        rw [Nat.shiftLeft_eq]
        omega
      _ = (excess + 1) * 2 ^ format.fractionBits + 2 ^ format.fractionBits := by
        rw [Nat.pow_succ, Nat.succ_mul]
        omega
      _ ≤ otherExcess * 2 ^ format.fractionBits + 2 ^ format.fractionBits :=
        Nat.add_le_add_right (Nat.mul_le_mul_right _ isLess) _
      _ ≤ otherExcess <<< format.fractionBits +
            divideToNearest other (denominator <<< otherExcess) := by
        have rounded :=
          div_le_divideToNearest other (denominator <<< otherExcess)
        rw [quotient] at rounded
        rw [Nat.shiftLeft_eq]
        omega
  · have same : excess = otherExcess := by
      omega
    rw [same]
    exact Nat.add_le_add_left (divideToNearest_mono notAbove _) _

/-- Rounding keeps the order of quotients. -/
theorem nearestMagnitude_mono (format : FloatFormat)
    {numerator denominator other otherDenominator : Nat}
    (positive : 0 < denominator) (otherPositive : 0 < otherDenominator)
    (notAbove : numerator * otherDenominator ≤ other * denominator) :
    nearestMagnitude format numerator denominator ≤
      nearestMagnitude format other otherDenominator := by
  rw [← nearestMagnitude_mul_mul numerator denominator otherPositive,
    ← nearestMagnitude_mul_mul other otherDenominator positive,
    Nat.mul_comm denominator]
  exact nearestMagnitude_mono_numerator format notAbove _

/-- Numbers are ordered like their magnitudes. -/
theorem units_lt_units {x y : Binary format}
    (isLess : x.magnitude < y.magnitude) : x.units < y.units := by
  refine Nat.lt_of_not_le fun notLess => ?_
  have notBelow := nearestMagnitude_mono_numerator format notLess 1
  rw [nearestMagnitude_units, nearestMagnitude_units] at notBelow
  exact Nat.not_le.2 isLess notBelow

theorem units_le_units {x y : Binary format}
    (notAbove : x.magnitude ≤ y.magnitude) : x.units ≤ y.units := by
  rcases Nat.lt_or_eq_of_le notAbove with isLess | same
  · exact Nat.le_of_lt (units_lt_units isLess)
  · rw [units, units, same]

end Binary

/-! ## Rational numbers -/

namespace Decimal

/-- The rational number that a decimal is. -/
def toRat (decimal : Decimal) : ℚ :=
  decimal.coefficient * 10 ^ decimal.exponent

theorem toRat_shift (decimal : Decimal) (zeros : Nat) :
    (decimal.shift zeros).toRat = decimal.toRat := by
  have ten : (10 : ℚ) ≠ 0 := by
    norm_num
  have power : (10 : ℚ) ^ zeros ≠ 0 := pow_ne_zero zeros ten
  simp only [toRat, shift, Nat.cast_mul, Nat.cast_pow, Nat.cast_ofNat,
    zpow_sub₀ ten, zpow_natCast]
  field_simp

/-- The first digit of a decimal gives a lower bound. -/
theorem pow_leadingExponent_le_toRat {decimal : Decimal}
    (positive : 0 < decimal.coefficient) :
    10 ^ decimal.leadingExponent ≤ decimal.toRat := by
  have someDigits : 0 < decimal.digits.length := Nat.length_toDigits_pos
  have atLeast : 10 ^ (decimal.digits.length - 1) ≤ decimal.coefficient := by
    by_cases oneDigit : decimal.digits.length - 1 = 0
    · rw [oneDigit]
      exact positive
    · refine Nat.not_lt.1 fun isBelow => ?_
      have fewer : decimal.digits.length ≤ decimal.digits.length - 1 :=
        (Nat.length_toDigits_le_iff (by decide)
          (Nat.pos_of_ne_zero oneDigit)).2 isBelow
      omega
  have split : decimal.leadingExponent =
      (decimal.digits.length - 1 : Nat) + decimal.exponent := by
    rw [leadingExponent]
    omega
  rw [split, zpow_add₀ (by norm_num), zpow_natCast, toRat]
  refine mul_le_mul_of_nonneg_right ?_ (zpow_nonneg (by norm_num) _)
  exact_mod_cast atLeast

/-- The power of ten above its first digit is an upper one. -/
theorem toRat_lt_pow_leadingExponent (decimal : Decimal) :
    decimal.toRat < 10 ^ (decimal.leadingExponent + 1) := by
  have below : decimal.coefficient < 10 ^ decimal.digits.length :=
    (Nat.length_toDigits_le_iff (by decide) Nat.length_toDigits_pos).1
      (Nat.le_refl _)
  have split : decimal.leadingExponent + 1 =
      (decimal.digits.length : Int) + decimal.exponent := by
    rw [leadingExponent]
    omega
  rw [split, zpow_add₀ (by norm_num), zpow_natCast, toRat]
  refine mul_lt_mul_of_pos_right ?_ (zpow_pos (by norm_num) _)
  exact_mod_cast below

/-- A number as a quotient of least positive numbers of a format. -/
def numerator (format : FloatFormat) (decimal : Decimal) : Nat :=
  (decimal.coefficient * Nat.pow 10 decimal.exponent.toNat) <<<
    format.resolution

/-- The other part of this quotient. -/
def denominator (decimal : Decimal) : Nat :=
  Nat.pow 10 (-decimal.exponent).toNat

theorem denominator_pos (decimal : Decimal) : 0 < decimal.denominator :=
  Nat.pow_pos (by decide)

theorem numerator_div_denominator (format : FloatFormat) (decimal : Decimal) :
    (decimal.numerator format : ℚ) / decimal.denominator =
      decimal.toRat * 2 ^ format.resolution := by
  have split : decimal.exponent =
      (decimal.exponent.toNat : Int) - ((-decimal.exponent).toNat : Int) := by
    omega
  have power : (10 : ℚ) ^ decimal.exponent =
      10 ^ decimal.exponent.toNat / 10 ^ (-decimal.exponent).toNat := by
    conv_lhs => rw [split, zpow_sub₀ (by norm_num), zpow_natCast, zpow_natCast]
  rw [numerator, denominator, toRat, power, Nat.shiftLeft_eq, Nat.pow_eq,
    Nat.pow_eq]
  push_cast
  ring

end Decimal

namespace Binary

variable {format : FloatFormat}

def absolute (x : Binary format) : ℚ :=
  x.units / 2 ^ format.resolution

theorem absolute_le_absolute {x y : Binary format}
    (notAbove : x.magnitude ≤ y.magnitude) : x.absolute ≤ y.absolute := by
  refine div_le_div_of_nonneg_right ?_ (by positivity)
  exact_mod_cast units_le_units notAbove

theorem toRat_le_absolute_iff (x : Binary format) (decimal : Decimal) :
    decimal.toRat ≤ x.absolute ↔
      decimal.numerator format ≤ x.units * decimal.denominator := by
  have positive : (0 : ℚ) < decimal.denominator := by
    exact_mod_cast decimal.denominator_pos
  rw [absolute, le_div_iff₀ (by positivity),
    ← decimal.numerator_div_denominator format, div_le_iff₀ positive]
  exact_mod_cast Iff.rfl

theorem magnitude_of_ofDecimal {negative : Bool} {decimal : Decimal}
    {x : Binary format} (isFinite : x.isFinite) (notZero : ¬ x.isZero)
    (read : ofDecimal negative decimal = x) :
    x.magnitude = nearestMagnitude format (decimal.numerator format)
      decimal.denominator := by
  obtain ⟨positive, notBelow, notAbove⟩ :=
    bounds_of_ofDecimal isFinite notZero read
  rw [← Nat.one_shiftLeft] at notAbove
  rw [ofDecimal, if_neg (Nat.ne_of_gt positive), if_neg (Int.not_le.2 notAbove),
    if_neg (Int.not_lt.2 notBelow)] at read
  have rounded : x.magnitude = min format.infinityMagnitude
      (nearestMagnitude format (decimal.numerator format)
        decimal.denominator) := by
    rw [← read, ofRatio, magnitude_ofMagnitude]
    · rfl
    · exact Nat.lt_of_le_of_lt (Nat.min_le_left _ _) (infinityMagnitude_lt _)
  have below := magnitude_lt_of_isFinite isFinite
  omega

/-- Reading keeps order. -/
theorem magnitude_le_of_toRat_le {negative otherNegative : Bool}
    {decimal other : Decimal} {x y : Binary format} (isFinite : x.isFinite)
    (notZero : ¬ x.isZero) (read : ofDecimal negative decimal = x)
    (isFiniteToo : y.isFinite) (notZeroToo : ¬ y.isZero)
    (readToo : ofDecimal otherNegative other = y)
    (notAbove : decimal.toRat ≤ other.toRat) : x.magnitude ≤ y.magnitude := by
  rw [magnitude_of_ofDecimal isFinite notZero read,
    magnitude_of_ofDecimal isFiniteToo notZeroToo readToo]
  apply nearestMagnitude_mono format decimal.denominator_pos
    other.denominator_pos
  have positive : (0 : ℚ) < decimal.denominator := by
    exact_mod_cast decimal.denominator_pos
  have otherPositive : (0 : ℚ) < other.denominator := by
    exact_mod_cast other.denominator_pos
  have quotients : (decimal.numerator format : ℚ) / decimal.denominator ≤
      other.numerator format / other.denominator := by
    rw [Decimal.numerator_div_denominator, Decimal.numerator_div_denominator]
    exact mul_le_mul_of_nonneg_right notAbove (by positivity)
  rw [div_le_div_iff₀ positive otherPositive] at quotients
  exact_mod_cast quotients

/-! ## Thresholds -/

/-- The number that a power of ten is read as. -/
def ofPower (format : FloatFormat) (power : Int) : Binary format :=
  ofDecimal false ⟨1, power⟩

/-- A power of ten is a threshold of a format if the number it is read as is
the least one that reaches it, and is written as this power. -/
structure IsThreshold (format : FloatFormat) (power : Int) : Prop where
  isFinite : (ofPower format power).isFinite
  notZero : ¬ (ofPower format power).isZero
  written : ∀ negative : Bool,
    (ofMagnitude negative (ofPower format power).magnitude :
      Binary format).shortestDecimal.leadingExponent = power
  reached : Decimal.numerator format ⟨1, power⟩ ≤
    (ofPower format power).units * Decimal.denominator ⟨1, power⟩
  least : (ofMagnitude false ((ofPower format power).magnitude - 1) :
      Binary format).units * Decimal.denominator ⟨1, power⟩ <
    Decimal.numerator format ⟨1, power⟩

/-- Up from a threshold, numbers are written with its power or a greater
one. -/
theorem IsThreshold.pow_le_absolute_iff {power : Int}
    (threshold : IsThreshold format power) {x : Binary format}
    (isFinite : x.isFinite) (notZero : ¬ x.isZero) :
    10 ^ power ≤ x.absolute ↔ power ≤ x.shortestDecimal.leadingExponent := by
  have read := ofDecimal_shortestDecimal isFinite notZero
  have positive := (bounds_of_ofDecimal isFinite notZero read).1
  have isPower : Decimal.toRat ⟨1, power⟩ = 10 ^ power := by
    rw [Decimal.toRat, Nat.cast_one, one_mul]
  have ten : (1 : ℚ) ≤ 10 := by
    norm_num
  constructor
  · intro reaches
    by_contra isShort
    have below : x.shortestDecimal.toRat ≤ Decimal.toRat ⟨1, power⟩ := by
      rw [isPower]
      exact (Decimal.toRat_lt_pow_leadingExponent _).le.trans
        (zpow_le_zpow_right₀ ten (by omega))
    have notAbove := magnitude_le_of_toRat_le isFinite notZero read
      threshold.isFinite threshold.notZero rfl below
    rcases Nat.lt_or_eq_of_le notAbove with isLess | same
    · have isPrevious : x.magnitude ≤
          (ofMagnitude false ((ofPower format power).magnitude - 1) :
            Binary format).magnitude := by
        rw [magnitude_ofMagnitude _ (Nat.lt_of_le_of_lt (Nat.sub_le _ _)
          (ofPower format power).magnitude_lt)]
        exact Nat.le_sub_one_of_lt isLess
      rw [← isPower] at reaches
      have previous :=
        (toRat_le_absolute_iff _ _).1 (reaches.trans
          (absolute_le_absolute isPrevious))
      exact Nat.not_le.2 threshold.least previous
    · have written := threshold.written x.isNegative
      rw [← same, ofMagnitude_magnitude] at written
      exact isShort (Int.le_of_eq written.symm)
  · intro isLong
    have notBelow : Decimal.toRat ⟨1, power⟩ ≤ x.shortestDecimal.toRat := by
      rw [isPower]
      exact (zpow_le_zpow_right₀ ten isLong).trans
        (Decimal.pow_leadingExponent_le_toRat positive)
    have notSmaller := magnitude_le_of_toRat_le threshold.isFinite
      threshold.notZero rfl isFinite notZero read notBelow
    rw [← isPower]
    exact ((toRat_le_absolute_iff _ _).2 threshold.reached).trans
      (absolute_le_absolute notSmaller)

/-- Both bounds of plain notation are thresholds. -/
theorem isThreshold {format : FloatFormat}
    (isKnown : format = .single ∨ format = .double) {power : Int}
    (isBound : power = -3 ∨ power = 7) : IsThreshold format power := by
  rcases isKnown with rfl | rfl <;> rcases isBound with rfl | rfl
  all_goals
    exact ⟨by decide +kernel, by decide +kernel, by decide +kernel,
      by decide +kernel, by decide +kernel⟩

end Binary

end Formula
