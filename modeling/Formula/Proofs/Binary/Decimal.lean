import Formula.Binary.Decimal
import Formula.Proofs.Binary.Rounding

/-!
# Decimals of numbers

The decimal that is written for a number is read as this number. Zeros at the
end of a coefficient do not matter, and whatever grid the search for a short
decimal stops at, it has found one that is read back; the exact value is one at
last.
-/

namespace Formula

namespace Decimal

/-! ## Zeros at the end -/

/-- The same decimal with further zeros at the end of its coefficient. -/
def shift (decimal : Decimal) (zeros : Nat) : Decimal :=
  ⟨decimal.coefficient * 10 ^ zeros, decimal.exponent - zeros⟩

theorem shift_zero (decimal : Decimal) : decimal.shift 0 = decimal := by
  obtain ⟨coefficient, exponent⟩ := decimal
  simp [shift]

theorem toDigits_mul_pow {number : Nat} (positive : 0 < number)
    (zeros : Nat) :
    Nat.toDigits 10 (number * 10 ^ zeros) =
      Nat.toDigits 10 number ++ List.replicate zeros '0' := by
  induction zeros with
  | zero =>
      simp
  | succ zeros inductionHypothesis =>
      have stays : 0 < number * 10 ^ zeros :=
        Nat.mul_pos positive (Nat.pow_pos (by decide))
      have appended := Nat.toDigits_append_toDigits (b := 10) (d := 0)
        (by decide) stays (by decide)
      have next :
          number * 10 ^ (zeros + 1) = 10 * (number * 10 ^ zeros) + 0 := by
        rw [Nat.pow_succ, Nat.add_zero, Nat.mul_comm 10, Nat.mul_assoc]
      rw [next, ← appended, inductionHypothesis, List.append_assoc,
        List.replicate_succ']
      rfl

theorem leadingExponent_shift {decimal : Decimal}
    (positive : 0 < decimal.coefficient) (zeros : Nat) :
    (decimal.shift zeros).leadingExponent = decimal.leadingExponent := by
  simp only [leadingExponent, digits, shift, toDigits_mul_pow positive,
    List.length_append, List.length_replicate]
  omega

/-- The zeros that are taken away can be put back. -/
theorem exists_shift_withoutTrailingZeros (coefficient : Nat)
    (exponent : Int) :
    ∃ zeros, (withoutTrailingZeros coefficient exponent).shift zeros =
      ⟨coefficient, exponent⟩ := by
  fun_induction withoutTrailingZeros coefficient exponent with
  | case1 coefficient exponent ends inductionHypothesis =>
      obtain ⟨zeros, shifted⟩ := inductionHypothesis
      obtain ⟨isQuotient, isNext⟩ := Decimal.mk.inj shifted
      refine ⟨zeros + 1, Decimal.mk.injEq .. ▸ ⟨?_, ?_⟩⟩
      · rw [Nat.pow_succ, ← Nat.mul_assoc, isQuotient]
        omega
      · omega
  | case2 coefficient exponent =>
      exact ⟨0, shift_zero _⟩

end Decimal

namespace Binary

variable {format : FloatFormat}

/-! ## Reading -/

/-- Only the quotient counts, and not how it is given. -/
theorem ofRatio_eq_of_mul_eq (negative : Bool)
    {numerator denominator other otherDenominator : Nat}
    (positive : 0 < denominator) (otherPositive : 0 < otherDenominator)
    (same : numerator * otherDenominator = other * denominator) :
    (ofRatio negative numerator denominator : Binary format) =
      ofRatio negative other otherDenominator := by
  rw [← ofRatio_mul_mul negative numerator denominator otherPositive, same,
    Nat.mul_comm denominator,
    ofRatio_mul_mul negative other otherDenominator positive]

/-- Zeros at the end of a coefficient do not change what is read. -/
theorem ofDecimal_shift (negative : Bool) (decimal : Decimal) (zeros : Nat) :
    (ofDecimal negative (decimal.shift zeros) : Binary format) =
      ofDecimal negative decimal := by
  have power : 0 < 10 ^ zeros := Nat.pow_pos (by decide)
  by_cases isZero : decimal.coefficient = 0
  · have staysZero : (decimal.shift zeros).coefficient = 0 := by
      rw [Decimal.shift, isZero, Nat.zero_mul]
    rw [ofDecimal, if_pos staysZero, ofDecimal, if_pos isZero]
  · have positive : 0 < decimal.coefficient := Nat.pos_of_ne_zero isZero
    have stays : (decimal.shift zeros).coefficient ≠ 0 :=
      Nat.ne_of_gt (Nat.mul_pos positive power)
    rw [ofDecimal, if_neg stays, Decimal.leadingExponent_shift positive,
      ofDecimal, if_neg isZero]
    split
    · rfl
    split
    · rfl
    refine ofRatio_eq_of_mul_eq negative (Nat.pow_pos (by decide))
      (Nat.pow_pos (by decide)) ?_
    obtain ⟨coefficient, exponent⟩ := decimal
    have exponents : zeros + (exponent - zeros).toNat + (-exponent).toNat =
        exponent.toNat + (-(exponent - zeros)).toNat := by
      omega
    simp only [Decimal.shift, Nat.shiftLeft_eq, Nat.pow_eq]
    calc
      coefficient * 10 ^ zeros * 10 ^ (exponent - zeros).toNat *
            2 ^ format.resolution * 10 ^ (-exponent).toNat =
          coefficient * 10 ^ (zeros + (exponent - zeros).toNat +
            (-exponent).toNat) * 2 ^ format.resolution := by
        simp only [Nat.pow_add]
        ac_rfl
      _ = coefficient * 10 ^ exponent.toNat * 2 ^ format.resolution *
          10 ^ (-(exponent - zeros)).toNat := by
        rw [exponents, Nat.pow_add]
        ac_rfl

theorem negate_ofRatio (negative : Bool) (numerator denominator : Nat) :
    (ofRatio negative numerator denominator : Binary format).negate =
      ofRatio (!negative) numerator denominator :=
  negate_ofMagnitude negative (Nat.lt_of_le_of_lt (Nat.min_le_left _ _)
    (infinityMagnitude_lt format))

/-- The sign of a decimal is not rounded. -/
theorem negate_ofDecimal (negative : Bool) (decimal : Decimal) :
    (ofDecimal negative decimal : Binary format).negate =
      ofDecimal (!negative) decimal := by
  have zeros : (zero negative : Binary format).negate = zero (!negative) :=
    negate_ofMagnitude negative (Nat.two_pow_pos _)
  have infinities : (infinity negative : Binary format).negate =
      infinity (!negative) :=
    negate_ofMagnitude negative (infinityMagnitude_lt format)
  unfold ofDecimal
  split
  · exact zeros
  split
  · exact infinities
  split
  · exact zeros
  · exact negate_ofRatio negative _ _

/-- A decimal that is read as a finite number other than zero is not zero
itself and has its first digit where numbers of the format have one. -/
theorem bounds_of_ofDecimal {negative : Bool} {decimal : Decimal}
    {x : Binary format} (isFinite : x.isFinite) (notZero : ¬ x.isZero)
    (read : ofDecimal negative decimal = x) :
    0 < decimal.coefficient ∧
      -(format.resolution + 2 : Int) ≤ decimal.leadingExponent ∧
        decimal.leadingExponent < (2 ^ format.exponentBits : Nat) := by
  unfold ofDecimal at read
  split at read
  · exact absurd (read ▸ isZero_zero negative) notZero
  split at read
  · exact absurd (read ▸ isFinite) (not_isFinite_infinity negative)
  split at read
  · exact absurd (read ▸ isZero_zero negative) notZero
  · rename_i notNone notAbove notBelow
    rw [Nat.one_shiftLeft] at notAbove
    exact ⟨Nat.pos_of_ne_zero notNone, Int.not_lt.1 notBelow,
      Int.not_le.1 notAbove⟩

/-! ## The exact value -/

theorem units_ne_zero {x : Binary format} (notZero : ¬ x.isZero) :
    x.units ≠ 0 := by
  have magnitude : x.magnitude ≠ 0 := fun none =>
    notZero (decide_eq_true none)
  have fraction := Nat.two_pow_pos format.fractionBits
  rw [units_eq]
  split
  · exact magnitude
  · exact Nat.ne_of_gt (Nat.mul_pos (by omega) (Nat.two_pow_pos _))

theorem fractionBits_le_resolution (format : FloatFormat) :
    format.fractionBits ≤ format.resolution :=
  Nat.le_add_left _ _

/-- The exact value has no more digits than the limits of reading allow. -/
theorem exactDecimal_coefficient_lt {x : Binary format}
    (isFinite : x.isFinite) :
    x.exactDecimal.coefficient <
      10 ^ (2 ^ format.exponentBits + format.resolution) := by
  have five : 0 < 5 ^ format.resolution := Nat.pow_pos (by decide)
  have fraction : 2 ^ format.fractionBits ≤ 2 ^ format.resolution :=
    Nat.pow_le_pow_right (by decide) (fractionBits_le_resolution format)
  have exponent : 2 ^ 2 ^ format.exponentBits ≤
      10 ^ 2 ^ format.exponentBits :=
    Nat.pow_le_pow_left (by decide) _
  have ten : 10 ^ format.resolution =
      2 ^ format.resolution * 5 ^ format.resolution :=
    Nat.mul_pow 2 5 format.resolution
  calc
    x.units * 5 ^ format.resolution <
        2 ^ (format.fractionBits + 2 ^ format.exponentBits) *
          5 ^ format.resolution :=
      Nat.mul_lt_mul_of_pos_right (units_lt isFinite) five
    _ ≤ 2 ^ format.resolution * 10 ^ 2 ^ format.exponentBits *
          5 ^ format.resolution := by
      rw [Nat.pow_add]
      exact Nat.mul_le_mul_right _ (Nat.mul_le_mul fraction exponent)
    _ = 10 ^ (2 ^ format.exponentBits + format.resolution) := by
      rw [Nat.pow_add, ten]
      ac_rfl

/-- The exact value of a number is read as this number. -/
theorem isReadFrom_exactDecimal {x : Binary format} (isFinite : x.isFinite)
    (notZero : ¬ x.isZero) : x.isReadFrom x.exactDecimal := by
  have notNone : x.exactDecimal.coefficient ≠ 0 :=
    Nat.mul_ne_zero (units_ne_zero notZero)
      (Nat.ne_of_gt (Nat.pow_pos (by decide)))
  have digits : 0 < x.exactDecimal.digits.length := Nat.length_toDigits_pos
  have few : x.exactDecimal.digits.length ≤
      2 ^ format.exponentBits + format.resolution :=
    (Nat.length_toDigits_le_iff (by decide)
      (Nat.add_pos_left (Nat.two_pow_pos _) _)).2
      (exactDecimal_coefficient_lt isFinite)
  have exponent : x.exactDecimal.exponent = -format.resolution := rfl
  have notAbove : ¬ ((1 <<< format.exponentBits : Nat) : Int) ≤
      x.exactDecimal.leadingExponent := by
    rw [Nat.one_shiftLeft, Decimal.leadingExponent, exponent]
    omega
  have notBelow : ¬ x.exactDecimal.leadingExponent <
      -(format.resolution + 2 : Int) := by
    rw [Decimal.leadingExponent, exponent]
    omega
  refine decide_eq_true ?_
  rw [ofDecimal, if_neg notNone, if_neg notAbove, if_neg notBelow]
  have ten : 5 ^ format.resolution * 2 ^ format.resolution =
      10 ^ format.resolution :=
    (Nat.mul_pow 5 2 format.resolution).symm
  have numerator : (x.exactDecimal.coefficient *
        Nat.pow 10 x.exactDecimal.exponent.toNat) <<< format.resolution =
      x.units * 10 ^ format.resolution := by
    have noPower : (-(format.resolution : Int)).toNat = 0 := by
      omega
    rw [exponent, noPower, Nat.shiftLeft_eq]
    simp only [exactDecimal, Nat.pow_eq, Nat.pow_zero, Nat.mul_one]
    rw [Nat.mul_assoc, ten]
  have denominator : Nat.pow 10 (-x.exactDecimal.exponent).toNat =
      10 ^ format.resolution := by
    rw [exponent, Int.neg_neg, Int.toNat_natCast]
    rfl
  rw [numerator, denominator]
  exact ofRatio_units isFinite (Nat.pow_pos (by decide))

/-! ## The shortest decimal -/

theorem isReadFrom_of_neighbour? {x : Binary format} {power : Nat}
    {decimal : Decimal} (found : x.neighbour? power = some decimal) :
    x.isReadFrom decimal := by
  simp only [neighbour?] at found
  split at found
  · rename_i accepted
    cases found
    exact ((Bool.and_eq_true _ _).mp accepted).1
  · split at found
    · rename_i accepted
      cases found
      exact accepted
    · cases found

/-- Whatever grid the search begins with, what it finds is read back. -/
theorem isReadFrom_neighbourFrom {x : Binary format} (isFinite : x.isFinite)
    (notZero : ¬ x.isZero) (power : Nat) :
    x.isReadFrom (x.neighbourFrom power) := by
  induction power with
  | zero =>
      exact isReadFrom_exactDecimal isFinite notZero
  | succ power inductionHypothesis =>
      rw [neighbourFrom]
      cases found : x.neighbour? power with
      | none =>
          exact inductionHypothesis
      | some decimal =>
          exact isReadFrom_of_neighbour? found

/-- The shortest decimal of a number is read as this number. -/
theorem ofDecimal_shortestDecimal {x : Binary format} (isFinite : x.isFinite)
    (notZero : ¬ x.isZero) :
    ofDecimal x.isNegative x.shortestDecimal = x := by
  have read := isReadFrom_neighbourFrom isFinite notZero
    x.exactDecimal.digits.length
  obtain ⟨zeros, shifted⟩ := Decimal.exists_shift_withoutTrailingZeros
    (x.neighbourFrom x.exactDecimal.digits.length).coefficient
    (x.neighbourFrom x.exactDecimal.digits.length).exponent
  rw [← ofDecimal_shift _ _ zeros]
  exact (congrArg _ shifted).trans (of_decide_eq_true read)

end Binary

end Formula
