import Mathlib.Algebra.Group.Nat.Defs
import Formula.Binary

/-!
# Rounding to a format

A number that a format holds is rounded to itself, whatever quotient denotes
it.
-/

namespace Formula.Binary

variable {format : FloatFormat}

/-! ## Sign and magnitude -/

theorem magnitude_eq (x : Binary format) :
    x.magnitude = x.bits.toNat % 2 ^ format.magnitudeWidth := by
  rw [magnitude, Nat.one_shiftLeft]

theorem magnitude_lt (x : Binary format) :
    x.magnitude < 2 ^ format.magnitudeWidth := by
  rw [magnitude_eq]
  exact Nat.mod_lt _ (Nat.two_pow_pos _)

theorem isNegative_eq (x : Binary format) :
    x.isNegative = decide (2 ^ format.magnitudeWidth ≤ x.bits.toNat) := by
  rw [isNegative, BitVec.msb_eq_decide]
  rfl

theorem toNat_lt (x : Binary format) :
    x.bits.toNat < 2 * 2 ^ format.magnitudeWidth := by
  have below : x.bits.toNat < 2 ^ (format.magnitudeWidth + 1) := x.bits.isLt
  rwa [Nat.pow_succ'] at below

theorem toNat_ofMagnitude (negative : Bool) {magnitude : Nat}
    (small : magnitude < 2 ^ format.magnitudeWidth) :
    (ofMagnitude negative magnitude : Binary format).bits.toNat =
      magnitude + if negative then 2 ^ format.magnitudeWidth else 0 := by
  have fits : (magnitude + if negative then 2 ^ format.magnitudeWidth else 0) <
      2 ^ format.width := by
    rw [FloatFormat.width, Nat.pow_succ']
    split <;> omega
  rw [ofMagnitude, Nat.one_shiftLeft]
  exact Nat.mod_eq_of_lt fits

theorem magnitude_ofMagnitude (negative : Bool) {magnitude : Nat}
    (small : magnitude < 2 ^ format.magnitudeWidth) :
    (ofMagnitude negative magnitude : Binary format).magnitude =
      magnitude := by
  rw [magnitude_eq, toNat_ofMagnitude negative small]
  split
  · rw [Nat.add_mod_right, Nat.mod_eq_of_lt small]
  · exact Nat.mod_eq_of_lt small

/-- A datum is its sign and its magnitude. -/
theorem ofMagnitude_magnitude (x : Binary format) :
    ofMagnitude x.isNegative x.magnitude = x := by
  have below := x.toNat_lt
  have bits : (ofMagnitude x.isNegative x.magnitude : Binary format).bits =
      x.bits := by
    refine BitVec.eq_of_toNat_eq ?_
    rw [toNat_ofMagnitude _ x.magnitude_lt, magnitude_eq, isNegative_eq]
    by_cases negative : 2 ^ format.magnitudeWidth ≤ x.bits.toNat
    · rw [if_pos (decide_eq_true negative), Nat.mod_eq_sub_mod negative,
        Nat.mod_eq_of_lt (by omega), Nat.sub_add_cancel negative]
    · rw [if_neg (by simpa using negative)]
      exact Nat.mod_eq_of_lt (by omega)
  cases x
  exact congrArg Binary.mk bits

theorem isNegative_ofMagnitude (negative : Bool) {magnitude : Nat}
    (small : magnitude < 2 ^ format.magnitudeWidth) :
    (ofMagnitude negative magnitude : Binary format).isNegative =
      negative := by
  rw [isNegative_eq, toNat_ofMagnitude negative small]
  cases negative with
  | false =>
      exact decide_eq_false (Nat.not_le.2 small)
  | true =>
      exact decide_eq_true (Nat.le_add_left _ _)

theorem negate_ofMagnitude (negative : Bool) {magnitude : Nat}
    (small : magnitude < 2 ^ format.magnitudeWidth) :
    (ofMagnitude negative magnitude : Binary format).negate =
      ofMagnitude (!negative) magnitude := by
  rw [negate, isNegative_ofMagnitude negative small,
    magnitude_ofMagnitude negative small]

theorem isFinite_negate (x : Binary format) :
    x.negate.isFinite = x.isFinite := by
  rw [isFinite, isFinite, negate, magnitude_ofMagnitude _ x.magnitude_lt]

theorem infinityMagnitude_lt (format : FloatFormat) :
    format.infinityMagnitude < 2 ^ format.magnitudeWidth := by
  have positive := Nat.two_pow_pos format.exponentBits
  have fraction := Nat.two_pow_pos format.fractionBits
  rw [FloatFormat.infinityMagnitude, FloatFormat.magnitudeWidth,
    Nat.shiftLeft_eq, Nat.one_shiftLeft, Nat.pow_add]
  exact Nat.mul_lt_mul_of_pos_right (by omega) fraction

theorem magnitude_lt_of_isFinite {x : Binary format} (isFinite : x.isFinite) :
    x.magnitude < format.infinityMagnitude :=
  of_decide_eq_true isFinite

theorem not_isNaN_of_isFinite {x : Binary format} (isFinite : x.isFinite) :
    ¬ x.isNaN := fun isNaN =>
  Nat.lt_asymm (magnitude_lt_of_isFinite isFinite) (of_decide_eq_true isNaN)

theorem not_isInfinite_of_isFinite {x : Binary format}
    (isFinite : x.isFinite) : ¬ x.isInfinite := fun isInfinite =>
  Nat.ne_of_lt (magnitude_lt_of_isFinite isFinite)
    (of_decide_eq_true isInfinite)

theorem not_isFinite_infinity (negative : Bool) :
    ¬ (infinity negative : Binary format).isFinite := by
  rw [isFinite, infinity, magnitude_ofMagnitude _ (infinityMagnitude_lt _)]
  simp

theorem isZero_zero (negative : Bool) :
    (zero negative : Binary format).isZero := by
  rw [isZero, zero, magnitude_ofMagnitude _ (Nat.two_pow_pos _)]
  rfl

theorem eq_zero_of_isZero {x : Binary format} (isZero : x.isZero) :
    x = zero x.isNegative := by
  have none : x.magnitude = 0 := of_decide_eq_true isZero
  rw [zero, ← none, ofMagnitude_magnitude]

/-! ## Rounding -/

/-- An exact quotient is not rounded. -/
theorem divideToNearest_mul (quotient : Nat) {denominator : Nat}
    (positive : 0 < denominator) :
    divideToNearest (quotient * denominator) denominator = quotient := by
  have below : compare (2 * 0) denominator = .lt :=
    Nat.compare_eq_lt.2 positive
  simp only [divideToNearest, Nat.mul_mod_left,
    Nat.mul_div_cancel _ positive, below]

/-- Only the quotient counts, and not how it is given. -/
theorem divideToNearest_mul_mul (numerator denominator : Nat) {factor : Nat}
    (positive : 0 < factor) :
    divideToNearest (numerator * factor) (denominator * factor) =
      divideToNearest numerator denominator := by
  have scaled : compare (2 * (numerator % denominator * factor))
      (denominator * factor) =
        compare (2 * (numerator % denominator)) denominator := by
    rw [← Nat.mul_assoc]
    simp only [compare, compareOfLessAndEq,
      Nat.mul_lt_mul_right positive, Nat.mul_left_inj (Nat.ne_of_gt positive)]
  simp only [divideToNearest, Nat.mul_div_mul_right _ _ positive,
    Nat.mul_mod_mul_right, scaled]

theorem nearestMagnitude_mul_mul (numerator denominator : Nat) {factor : Nat}
    (positive : 0 < factor) :
    nearestMagnitude format (numerator * factor) (denominator * factor) =
      nearestMagnitude format numerator denominator := by
  have moved (shift : Nat) :
      (denominator * factor) <<< shift = denominator <<< shift * factor := by
    rw [Nat.shiftLeft_eq, Nat.shiftLeft_eq, Nat.mul_right_comm]
  simp only [nearestMagnitude, Nat.mul_div_mul_right _ _ positive, moved,
    divideToNearest_mul_mul _ _ positive]

theorem ofRatio_mul_mul (negative : Bool) (numerator denominator : Nat)
    {factor : Nat} (positive : 0 < factor) :
    (ofRatio negative (numerator * factor) (denominator * factor) :
        Binary format) =
      ofRatio negative numerator denominator := by
  rw [ofRatio, nearestMagnitude_mul_mul _ _ positive, ofRatio]

/-! ## Numbers of the format -/

/-- The value of a number is its magnitude, or a mantissa that is shifted by
its exponent. -/
theorem units_eq (x : Binary format) :
    x.units =
      if x.magnitude / 2 ^ format.fractionBits = 0 then x.magnitude
      else
        (2 ^ format.fractionBits +
          x.magnitude % 2 ^ format.fractionBits) *
            2 ^ (x.magnitude / 2 ^ format.fractionBits - 1) := by
  rw [units]
  simp only [Nat.shiftRight_eq_div_pow, Nat.shiftLeft_eq, Nat.one_mul]
  split
  · rename_i isSmall
    exact Nat.mod_eq_of_lt
      ((Nat.div_eq_zero_iff_lt (Nat.two_pow_pos _)).1 isSmall)
  · rfl

/-- A number with a leading bit above its other bits. -/
theorem log2_mantissa {fractionBits fraction : Nat}
    (small : fraction < 2 ^ fractionBits) (shift : Nat) :
    ((2 ^ fractionBits + fraction) * 2 ^ shift).log2 =
      fractionBits + shift := by
  have scale := Nat.two_pow_pos shift
  refine (Nat.log2_eq_iff (Nat.ne_of_gt (Nat.mul_pos (by omega) scale))).2
    ⟨?_, ?_⟩
  · rw [Nat.pow_add]
    exact Nat.mul_le_mul_right _ (Nat.le_add_right _ _)
  · rw [Nat.add_right_comm, Nat.pow_add, Nat.pow_succ]
    exact Nat.mul_lt_mul_of_pos_right (by omega) scale

/-- The magnitude of a number is the one that is nearest to its value. -/
theorem nearestMagnitude_units (x : Binary format) :
    nearestMagnitude format x.units 1 = x.magnitude := by
  have fields := Nat.div_add_mod x.magnitude (2 ^ format.fractionBits)
  have small : x.magnitude % 2 ^ format.fractionBits <
      2 ^ format.fractionBits :=
    Nat.mod_lt _ (Nat.two_pow_pos _)
  rw [nearestMagnitude, Nat.div_one, units_eq]
  simp only [Nat.shiftLeft_eq, Nat.one_mul]
  split
  · rename_i isSmall
    have below : x.magnitude < 2 ^ format.fractionBits :=
      (Nat.div_eq_zero_iff_lt (Nat.two_pow_pos _)).1 isSmall
    have noExcess : x.magnitude.log2 - format.fractionBits = 0 := by
      by_cases isZero : x.magnitude = 0
      · rw [isZero]
        exact Nat.zero_sub _
      · exact Nat.sub_eq_zero_of_le
          (Nat.le_of_lt ((Nat.log2_lt isZero).2 below))
    have exactly := divideToNearest_mul x.magnitude Nat.one_pos
    rw [Nat.mul_one] at exactly
    rw [noExcess, Nat.zero_mul, Nat.zero_add, Nat.pow_zero, exactly]
  · rename_i notSmall
    -- The mantissa has one bit more than the fraction, so the exponent of its
    -- shift is what exceeds the fraction.
    generalize x.magnitude / 2 ^ format.fractionBits = exponent at *
    obtain ⟨shift, rfl⟩ := Nat.exists_eq_succ_of_ne_zero notSmall
    rw [Nat.succ_eq_add_one, Nat.add_sub_cancel, log2_mantissa small,
      Nat.add_sub_cancel_left, divideToNearest_mul _ (Nat.two_pow_pos _)]
    rw [Nat.succ_eq_add_one, Nat.mul_succ] at fields
    rw [Nat.mul_comm shift, ← Nat.add_assoc]
    exact fields

/-- A finite number is what a quotient that denotes it is rounded to. -/
theorem ofRatio_units {x : Binary format} (isFinite : x.isFinite)
    {factor : Nat} (positive : 0 < factor) :
    ofRatio x.isNegative (x.units * factor) factor = x := by
  have below := magnitude_lt_of_isFinite isFinite
  have scaled : (ofRatio x.isNegative (x.units * factor) (1 * factor) :
      Binary format) = ofRatio x.isNegative x.units 1 :=
    ofRatio_mul_mul x.isNegative x.units 1 positive
  rw [Nat.one_mul] at scaled
  rw [scaled, ofRatio, nearestMagnitude_units,
    Nat.min_eq_right (Nat.le_of_lt below), ofMagnitude_magnitude]

/-- Finite numbers have fewer digits than their exponents allow. -/
theorem units_lt {x : Binary format} (isFinite : x.isFinite) :
    x.units < 2 ^ (format.fractionBits + 2 ^ format.exponentBits) := by
  have below := magnitude_lt_of_isFinite isFinite
  have small : x.magnitude % 2 ^ format.fractionBits <
      2 ^ format.fractionBits :=
    Nat.mod_lt _ (Nat.two_pow_pos _)
  have inRange : x.magnitude / 2 ^ format.fractionBits <
      2 ^ format.exponentBits - 1 := by
    refine (Nat.div_lt_iff_lt_mul (Nat.two_pow_pos _)).2 ?_
    rwa [FloatFormat.infinityMagnitude, Nat.shiftLeft_eq,
      Nat.one_shiftLeft] at below
  rw [units_eq]
  split
  · rename_i isSmall
    have withinFraction : x.magnitude < 2 ^ format.fractionBits :=
      (Nat.div_eq_zero_iff_lt (Nat.two_pow_pos _)).1 isSmall
    exact Nat.lt_of_lt_of_le withinFraction
      (Nat.pow_le_pow_right (by decide) (Nat.le_add_right _ _))
  · generalize x.magnitude / 2 ^ format.fractionBits = exponent at *
    calc
      (2 ^ format.fractionBits + x.magnitude % 2 ^ format.fractionBits) *
            2 ^ (exponent - 1) <
          2 ^ (format.fractionBits + 1) * 2 ^ (exponent - 1) := by
        refine Nat.mul_lt_mul_of_pos_right ?_ (Nat.two_pow_pos _)
        rw [Nat.pow_succ]
        omega
      _ = 2 ^ (format.fractionBits + 1 + (exponent - 1)) :=
        (Nat.pow_add _ _ _).symm
      _ ≤ 2 ^ (format.fractionBits + 2 ^ format.exponentBits) :=
        Nat.pow_le_pow_right (by decide) (by omega)

end Formula.Binary
