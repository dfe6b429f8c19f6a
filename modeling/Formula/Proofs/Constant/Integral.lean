import Formula.Proofs.Constant.Definedness
import Formula.Proofs.Integer

/-!
# Operators on integral values

Two integers meet in the wider of their kinds without a loss, so the operators
on them compute the exact result modulo the width of that kind. A shift computes
in the kind of its left side.
-/

namespace Formula

def NumericKind.width : NumericKind → Nat
  | .int | .float => 32
  | .long | .double => 64

def Number.toInt? : Number → Option Int
  | .int value => some value.toInt
  | .long value => some value.toInt
  | .float _ | .double _ => none

/-- A number is what an exact integer becomes in a kind: it is of this kind, and
its value is the one in the signed range of the kind that differs from the exact
integer by a multiple of the power of two of the width. -/
structure Number.Wraps (number : Number) (kind : NumericKind)
    (exact : Int) : Prop where
  kind_eq : number.kind = kind
  toInt?_eq : number.toInt? = some (exact.bmod (2 ^ kind.width))

/-! ## Pairs of integers -/

namespace NumberPair

variable {pair : NumberPair} {left right : Int}

def toInts? : NumberPair → Option (Int × Int)
  | .int left right => some (left.toInt, right.toInt)
  | .long left right => some (left.toInt, right.toInt)
  | .float _ _ | .double _ _ => none

/-- The values of a kind are in its signed range. -/
theorem bmod_of_toInts? (integers : pair.toInts? = some (left, right)) :
    left.bmod (2 ^ pair.kind.width) = left := by
  cases pair with
  | int | long =>
      cases integers
      exact BitVec.toInt_bmod_cancel _
  | float | double =>
      cases integers

/-- A remainder is in the range of the dividend. -/
theorem bmod_tmod_of_toInts? (integers : pair.toInts? = some (left, right)) :
    (left.tmod right).bmod (2 ^ pair.kind.width) = left.tmod right := by
  cases pair with
  | int | long =>
      cases integers
      rw [← BitVec.toInt_srem]
      exact BitVec.toInt_bmod_cancel _
  | float | double =>
      cases integers

theorem arithmetic?_eq_none_iff {operator : ArithmeticOperator}
    (integers : pair.toInts? = some (left, right)) :
    pair.arithmetic? operator = none ↔ operator.divides ∧ right = 0 := by
  cases pair with
  | int | long =>
      cases integers
      exact Option.map_eq_none_iff.trans Integer.arithmetic_eq_none_iff
  | float | double =>
      cases integers

theorem wraps_of_arithmetic? {operator : ArithmeticOperator} {value : Number}
    (integers : pair.toInts? = some (left, right))
    (computed : pair.arithmetic? operator = some value) :
    value.Wraps pair.kind (operator.exact left right) := by
  cases pair with
  | int | long =>
      cases integers
      obtain ⟨bits, isResult, rfl⟩ := Option.map_eq_some_iff.1 computed
      exact ⟨rfl, congrArg some (Integer.toInt_of_arithmetic isResult)⟩
  | float | double =>
      cases integers

theorem exists_wraps_of_bitwise? (operator : BitwiseOperator)
    (integers : pair.toInts? = some (left, right)) :
    ∃ value, pair.bitwise? operator = some value ∧
      value.Wraps pair.kind (operator.exact left right) := by
  cases pair with
  | int | long =>
      cases integers
      exact ⟨_, rfl, rfl, congrArg some (Integer.toInt_bitwise operator _ _)⟩
  | float | double =>
      cases integers

end NumberPair

namespace Number

variable {left right : Number} {leftValue rightValue : Int}

/-- Integers keep their values where they meet. -/
theorem toInts?_pair (isLeft : left.toInt? = some leftValue)
    (isRight : right.toInt? = some rightValue) :
    (left.pair right).toInts? = some (leftValue, rightValue) := by
  have widened (bits : BitVec 32) :
      (bits.signExtend 64).toInt = bits.toInt :=
    BitVec.toInt_signExtend_of_le (by decide)
  cases left with
  | int | long =>
      cases isLeft
      cases right with
      | int | long =>
          cases isRight
          simp only [pair, NumberPair.toInts?, widened]
      | float | double =>
          cases isRight
  | float | double =>
      cases isLeft

/-- Two integers meet in a long integer if one of them is long. -/
theorem promote_eq_ite (isLeft : left.toInt? = some leftValue)
    (isRight : right.toInt? = some rightValue) :
    left.kind.promote right.kind =
      if left.kind = .long ∨ right.kind = .long then .long else .int := by
  cases left with
  | int | long =>
      cases right with
      | int | long =>
          rfl
      | float | double =>
          cases isRight
  | float | double =>
      cases isLeft

/-- The bits that count of a distance tell by how many places a number is
shifted, also where the distance is negative or has further bits. -/
theorem exists_distance? (isRight : right.toInt? = some rightValue) :
    ∃ distance, right.distance? = some distance ∧
      ∀ kind : NumericKind, distance.toNat % kind.width =
        (rightValue % kind.width).toNat := by
  have divides (kind : NumericKind) : kind.width ∣ 2 ^ 32 := by
    cases kind <;> decide
  have residue {width : Nat} (bits : BitVec width) (kind : NumericKind)
      (widthDivides : kind.width ∣ 2 ^ width) :
      bits.toNat % kind.width = (bits.toInt % kind.width).toNat := by
    have unsigned : bits.toInt % (2 ^ width : Nat) = bits.toNat := by
      exact_mod_cast Integer.toInt_emod bits
    rw [← Int.emod_emod_of_dvd bits.toInt
      (Int.natCast_dvd_natCast.2 widthDivides), unsigned]
    rfl
  cases right with
  | int bits =>
      cases isRight
      exact ⟨_, rfl, fun kind => residue bits kind (divides kind)⟩
  | long bits =>
      cases isRight
      refine ⟨_, rfl, fun kind => ?_⟩
      have inLong : kind.width ∣ 2 ^ 64 :=
        (divides kind).trans (Nat.pow_dvd_pow 2 (by decide))
      rw [← residue bits kind inLong]
      exact Nat.mod_mod_of_dvd bits.toNat (divides kind)
  | float | double =>
      cases isRight

theorem exists_wraps_of_shift? (operator : ShiftOperator)
    (isLeft : left.toInt? = some leftValue)
    (isRight : right.toInt? = some rightValue) :
    ∃ value, left.shift? operator right = some value ∧
      value.Wraps left.kind (operator.exact left.kind.width leftValue
        (rightValue % left.kind.width).toNat) := by
  obtain ⟨distance, isDistance, places⟩ := exists_distance? isRight
  unfold shift?
  rw [isDistance]
  cases left with
  | int value =>
      cases isLeft
      refine ⟨_, rfl, rfl, congrArg some ?_⟩
      rw [← places (Number.int value).kind]
      exact Integer.toInt_shift operator value distance
  | long value =>
      cases isLeft
      refine ⟨_, rfl, rfl, congrArg some ?_⟩
      rw [← places (Number.long value).kind]
      exact Integer.toInt_shift operator value distance
  | float | double =>
      cases isLeft

theorem wraps_negate (isLeft : left.toInt? = some leftValue) :
    left.negate.Wraps left.kind (-leftValue) := by
  cases left with
  | int | long =>
      cases isLeft
      exact ⟨rfl, congrArg some BitVec.toInt_neg⟩
  | float | double =>
      cases isLeft

/-- Inverting every bit does not leave the range of a kind. -/
theorem exists_complement? (isLeft : left.toInt? = some leftValue) :
    ∃ inverted, left.complement? = some inverted ∧
      inverted.kind = left.kind ∧
        inverted.toInt? = some (-leftValue - 1) := by
  have inRange {width : Nat} (bits : BitVec (width + 1)) :
      (~~~bits).toInt = -bits.toInt - 1 := by
    have below := BitVec.two_mul_toInt_lt (x := bits)
    have above := BitVec.le_two_mul_toInt (x := bits)
    rw [Integer.toInt_not]
    refine Int.bmod_eq_of_le_mul_two ?_ ?_
    · push_cast at *
      omega
    · push_cast at *
      omega
  cases left with
  | int | long =>
      cases isLeft
      exact ⟨_, rfl, rfl, congrArg some (inRange _)⟩
  | float | double =>
      cases isLeft

end Number

/-! ## Operators on values -/

/-- An operator has the number on two numbers for its result that an exact
integer becomes in a kind. -/
def Number.Computes (operator : BinaryOperator) (left right : Number)
    (kind : NumericKind) (exact : Int) : Prop :=
  ∃ result : Number,
    (Constant.number left).apply operator (.number right) =
        .ok (.number result) ∧
      result.Wraps kind exact

namespace Number

variable {left right : Number} {leftValue rightValue : Int}

theorem apply_eq_divisionByZero_iff (operator : ArithmeticOperator)
    (isLeft : left.toInt? = some leftValue)
    (isRight : right.toInt? = some rightValue) :
    (Constant.number left).apply (.arithmetic operator) (.number right) =
        .error .divisionByZero ↔
      operator.divides ∧ rightValue = 0 := by
  have integers := toInts?_pair isLeft isRight
  rw [← NumberPair.arithmetic?_eq_none_iff integers,
    Constant.apply_arithmetic]
  cases (left.pair right).arithmetic? operator <;> simp

theorem computes_arithmetic (operator : ArithmeticOperator)
    (isLeft : left.toInt? = some leftValue)
    (isRight : right.toInt? = some rightValue)
    (defined : ¬ (operator.divides ∧ rightValue = 0)) :
    Computes (.arithmetic operator) left right
      (left.kind.promote right.kind)
      (operator.exact leftValue rightValue) := by
  have integers := toInts?_pair isLeft isRight
  rw [← NumberPair.arithmetic?_eq_none_iff integers] at defined
  obtain ⟨result, computed⟩ := Option.ne_none_iff_exists'.1 defined
  refine ⟨result, ?_, ?_⟩
  · rw [Constant.apply_arithmetic, computed]
  · rw [← kind_pair]
    exact NumberPair.wraps_of_arithmetic? integers computed

theorem computes_bitwise (operator : BitwiseOperator)
    (isLeft : left.toInt? = some leftValue)
    (isRight : right.toInt? = some rightValue) :
    Computes (.bitwise operator) left right (left.kind.promote right.kind)
      (operator.exact leftValue rightValue) := by
  have integers := toInts?_pair isLeft isRight
  obtain ⟨result, computed, wraps⟩ :=
    NumberPair.exists_wraps_of_bitwise? operator integers
  rw [kind_pair] at wraps
  exact ⟨result, Constant.apply_bitwise operator computed, wraps⟩

theorem computes_shift (operator : ShiftOperator)
    (isLeft : left.toInt? = some leftValue)
    (isRight : right.toInt? = some rightValue) :
    Computes (.shift operator) left right left.kind
      (operator.exact left.kind.width leftValue
        (rightValue % left.kind.width).toNat) := by
  obtain ⟨result, computed, wraps⟩ :=
    exists_wraps_of_shift? operator isLeft isRight
  exact ⟨result, Constant.apply_shift operator computed, wraps⟩

end Number

theorem NumericKind.promote_promote_right (left right : NumericKind) :
    (left.promote right).promote right = left.promote right := by
  cases left <;> cases right <;> rfl

theorem NumericKind.promote_self (kind : NumericKind) :
    kind.promote kind = kind := by
  cases kind <;> rfl

namespace Number

variable {left right : Number} {leftValue rightValue : Int}

/-- The quotient times the divisor and the remainder make up the dividend, also
where the quotient wraps around. -/
theorem exists_dividesBack (isLeft : left.toInt? = some leftValue)
    (isRight : right.toInt? = some rightValue) (notZero : rightValue ≠ 0) :
    ∃ quotient remainder product sum : Number,
      (Constant.number left).apply (.arithmetic .divide) (.number right) =
          .ok (.number quotient) ∧
        (Constant.number left).apply (.arithmetic .remainder)
            (.number right) = .ok (.number remainder) ∧
          remainder.toInt? = some (leftValue.tmod rightValue) ∧
            (Constant.number quotient).apply (.arithmetic .multiply)
                (.number right) = .ok (.number product) ∧
              (Constant.number product).apply (.arithmetic .add)
                  (.number remainder) = .ok (.number sum) ∧
                sum.kind = left.kind.promote right.kind ∧
                  sum.toInt? = some leftValue := by
  have integers := toInts?_pair isLeft isRight
  have leftInRange := NumberPair.bmod_of_toInts? integers
  have remainderInRange := NumberPair.bmod_tmod_of_toInts? integers
  rw [kind_pair] at leftInRange remainderInRange
  have defined (operator : ArithmeticOperator) :
      ¬ (operator.divides ∧ rightValue = 0) := fun none => notZero none.2
  obtain ⟨quotient, divided, quotientWraps⟩ :=
    computes_arithmetic .divide isLeft isRight (defined .divide)
  obtain ⟨remainder, remains, remainderWraps⟩ :=
    computes_arithmetic .remainder isLeft isRight (defined .remainder)
  have isRemainder : remainder.toInt? = some (leftValue.tmod rightValue) := by
    rw [remainderWraps.toInt?_eq, ArithmeticOperator.exact, remainderInRange]
  obtain ⟨product, multiplied, productWraps⟩ :=
    computes_arithmetic .multiply quotientWraps.toInt?_eq isRight
      (defined .multiply)
  have productKind : product.kind = left.kind.promote right.kind := by
    rw [productWraps.kind_eq, quotientWraps.kind_eq,
      NumericKind.promote_promote_right]
  obtain ⟨sum, added, sumWraps⟩ :=
    computes_arithmetic .add productWraps.toInt?_eq isRemainder
      (fun divides => Bool.false_ne_true divides.1)
  have sumKind : sum.kind = left.kind.promote right.kind := by
    rw [sumWraps.kind_eq, productKind, remainderWraps.kind_eq,
      NumericKind.promote_self]
  refine ⟨quotient, remainder, product, sum, divided, remains, isRemainder,
    multiplied, added, sumKind, ?_⟩
  rw [sumWraps.toInt?_eq, ← sumWraps.kind_eq, sumKind, ← productWraps.kind_eq,
    productKind]
  simp only [ArithmeticOperator.exact, Int.bmod_mul_bmod, Int.bmod_add_bmod,
    Int.tdiv_mul_add_tmod, leftInRange]

end Number

/-- The operators on two integers, of one kind or of both. Arithmetic and
bitwise operators compute the exact result modulo the width of the wider kind,
and fail exactly where they divide by zero. The quotient times the divisor and
the remainder, whose sign is that of the dividend, always make up the dividend.
Shifts compute modulo the width of the left kind, by the distance modulo this
width. -/
theorem integral_operators_wrap {left right : Number}
    {leftValue rightValue : Int} (isLeft : left.toInt? = some leftValue)
    (isRight : right.toInt? = some rightValue) :
    left.kind.promote right.kind =
        (if left.kind = .long ∨ right.kind = .long then .long else .int) ∧
      (∀ operator : ArithmeticOperator,
        ((Constant.number left).apply (.arithmetic operator) (.number right) =
            .error .divisionByZero ↔
          operator.divides ∧ rightValue = 0) ∧
        (¬ (operator.divides ∧ rightValue = 0) →
          Number.Computes (.arithmetic operator) left right
            (left.kind.promote right.kind)
            (operator.exact leftValue rightValue))) ∧
      (∀ operator : BitwiseOperator,
        Number.Computes (.bitwise operator) left right
          (left.kind.promote right.kind)
          (operator.exact leftValue rightValue)) ∧
      (rightValue ≠ 0 → ∃ quotient remainder product sum : Number,
        (Constant.number left).apply (.arithmetic .divide) (.number right) =
            .ok (.number quotient) ∧
          (Constant.number left).apply (.arithmetic .remainder)
              (.number right) = .ok (.number remainder) ∧
            (∃ rest, remainder.toInt? = some rest ∧
              rest.sign =
                if rightValue ∣ leftValue then 0 else leftValue.sign) ∧
              (Constant.number quotient).apply (.arithmetic .multiply)
                  (.number right) = .ok (.number product) ∧
                (Constant.number product).apply (.arithmetic .add)
                    (.number remainder) = .ok (.number sum) ∧
                  sum.kind = left.kind.promote right.kind ∧
                    sum.toInt? = some leftValue) ∧
      (∀ operator : ShiftOperator,
        Number.Computes (.shift operator) left right left.kind
          (operator.exact left.kind.width leftValue
            (rightValue % left.kind.width).toNat)) ∧
      (∃ negated : Number,
        Constant.applyUnary .negate (.number left) = .ok (.number negated) ∧
          negated.Wraps left.kind (-leftValue)) ∧
      ∃ inverted : Number,
        Constant.applyUnary .complement (.number left) =
            .ok (.number inverted) ∧
          inverted.kind = left.kind ∧
            inverted.toInt? = some (-leftValue - 1) := by
  refine ⟨Number.promote_eq_ite isLeft isRight,
    fun operator => ⟨Number.apply_eq_divisionByZero_iff operator isLeft isRight,
      Number.computes_arithmetic operator isLeft isRight⟩,
    fun operator => Number.computes_bitwise operator isLeft isRight,
    fun notZero => ?_,
    fun operator => Number.computes_shift operator isLeft isRight,
    ⟨_, rfl, Number.wraps_negate isLeft⟩, ?_⟩
  · obtain ⟨quotient, remainder, product, sum, divided, remains, isRemainder,
      restored⟩ := Number.exists_dividesBack isLeft isRight notZero
    exact ⟨quotient, remainder, product, sum, divided, remains,
      ⟨_, isRemainder, Int.sign_tmod leftValue rightValue⟩, restored⟩
  · obtain ⟨inverted, complemented, isInverted⟩ :=
      Number.exists_complement? isLeft
    refine ⟨inverted, ?_, isInverted⟩
    simp only [Constant.applyUnary, complemented]

/-- The least long integer divided by minus one, whose exact quotient no long
integer is, and shifted by minus one, which is by 63 places. -/
theorem least_long_wraps :
    (Number.long (BitVec.intMin 64)).toInt? = some (-2 ^ 63) ∧
      (Number.int (-1)).toInt? = some (-1) ∧
        Number.Computes (.arithmetic .divide) (.long (BitVec.intMin 64))
          (.int (-1)) .long (2 ^ 63) ∧
          Number.Computes (.shift .rightUnsigned) (.long (BitVec.intMin 64))
            (.int (-1)) .long 1 := by
  have isLeast : (Number.long (BitVec.intMin 64)).toInt? =
      some (-2 ^ 63) := by decide
  have isMinusOne : (Number.int (-1)).toInt? = some (-1) := by decide
  obtain ⟨_, arithmetic, _, _, shifted, _⟩ :=
    integral_operators_wrap isLeast isMinusOne
  exact ⟨isLeast, isMinusOne, (arithmetic .divide).2 (by decide),
    shifted .rightUnsigned⟩

end Formula
