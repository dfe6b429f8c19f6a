import Formula.Integer
import Mathlib.Data.Int.Bitwise

/-!
# Exact results of integer operators

What the operators on the integers of a width have for results: the exact
integer, reduced modulo the power of two of the width to the one that the width
holds. Only a division by zero has no result.
-/

namespace Formula

/-! ## Exact results -/

def ArithmeticOperator.divides : ArithmeticOperator → Bool
  | .divide | .remainder => true
  | .add | .subtract | .multiply => false

/-- The exact result of an arithmetic operator. A quotient is cut off toward
zero, so that its remainder has the sign of the dividend. -/
def ArithmeticOperator.exact (operator : ArithmeticOperator)
    (left right : Int) : Int :=
  match operator with
  | .add => left + right
  | .subtract => left - right
  | .multiply => left * right
  | .divide => left.tdiv right
  | .remainder => left.tmod right

/-- The exact result of a bitwise operator, negative integers going on with
ones without end. -/
def BitwiseOperator.exact (operator : BitwiseOperator)
    (left right : Int) : Int :=
  match operator with
  | .or => left.lor right
  | .xor => left.xor right
  | .and => left.land right

/-- The exact result of a shift: the product with a power of two, or the
rounded down quotient by it of the integer itself or, for the shift that fills
with zeros, of the integer read without a sign. -/
def ShiftOperator.exact (operator : ShiftOperator) (width : Nat)
    (value : Int) (places : Nat) : Int :=
  match operator with
  | .left => value * 2 ^ places
  | .right => value.fdiv (2 ^ places)
  | .rightUnsigned => (value % 2 ^ width).fdiv (2 ^ places)

namespace Integer

variable {width : Nat}

/-! ## Bits -/

/-- The bits of an integer in a width are the lowest bits of the integer. -/
theorem getLsbD_ofInt (value : Int) (index : Nat) :
    (BitVec.ofInt width value).getLsbD index =
      (decide (index < width) && value.testBit index) := by
  cases value with
  | ofNat value =>
      have isNat : BitVec.ofInt width (Int.ofNat value) =
          BitVec.ofNat width value := BitVec.ofInt_natCast width value
      rw [isNat, BitVec.getLsbD_ofNat]
      rfl
  | negSucc value =>
      have testBit : (Int.negSucc value).testBit index =
          !value.testBit index := rfl
      rw [BitVec.ofInt_negSucc_eq_not_ofNat, BitVec.getLsbD_not,
        BitVec.getLsbD_ofNat, testBit]
      by_cases inside : index < width
      · simp only [inside, decide_true, Bool.true_and]
      · simp only [inside, decide_false, Bool.false_and]

/-- The unsigned reading of an integer is its residue. -/
theorem toInt_emod (value : BitVec width) :
    value.toInt % 2 ^ width = value.toNat := by
  have below : (value.toNat : Int) < 2 ^ width := by
    exact_mod_cast value.isLt
  have power : (2 : Int) ^ width = ((2 ^ width : Nat) : Int) := by
    norm_cast
  rw [BitVec.toInt_eq_toNat_bmod, power, Int.bmod_emod, ← power]
  exact Int.emod_eq_of_lt (Int.natCast_nonneg _) below

/-- Inverting every bit takes the negative and one less. -/
theorem toInt_not (value : BitVec width) :
    (~~~value).toInt = (-value.toInt - 1).bmod (2 ^ width) := by
  have isOne : (BitVec.ofNat width 1).toInt = (1 : Int).bmod (2 ^ width) :=
    BitVec.toInt_ofNat' 1
  rw [BitVec.not_eq_neg_add, BitVec.toInt_sub, BitVec.toInt_neg, isOne,
    Int.bmod_sub_bmod, Int.sub_bmod_bmod]

/-! ## Operators -/

theorem arithmetic_eq_none_iff {operator : ArithmeticOperator}
    {left right : BitVec width} :
    arithmetic operator left right = none ↔
      operator.divides ∧ right.toInt = 0 := by
  have isZero : right = 0 ↔ right.toInt = 0 := by
    rw [← BitVec.toInt_inj]
    exact Iff.of_eq (congrArg (right.toInt = ·) BitVec.toInt_zero)
  cases operator with
  | add | subtract | multiply =>
      simp [arithmetic, ArithmeticOperator.divides]
  | divide | remainder =>
      simp [arithmetic, ArithmeticOperator.divides, ← isZero]

/-- An arithmetic operator computes its exact result modulo the width. -/
theorem toInt_of_arithmetic {operator : ArithmeticOperator}
    {left right result : BitVec width}
    (computed : arithmetic operator left right = some result) :
    result.toInt =
      (operator.exact left.toInt right.toInt).bmod (2 ^ width) := by
  cases operator with
  | add =>
      cases computed
      exact BitVec.toInt_add left right
  | subtract =>
      cases computed
      exact BitVec.toInt_sub
  | multiply =>
      cases computed
      exact BitVec.toInt_mul left right
  | divide =>
      obtain ⟨_, isQuotient⟩ := Option.ite_none_left_eq_some.1 computed
      cases isQuotient
      exact BitVec.toInt_sdiv left right
  | remainder =>
      obtain ⟨_, isRemainder⟩ := Option.ite_none_left_eq_some.1 computed
      cases isRemainder
      rw [ArithmeticOperator.exact, ← BitVec.toInt_srem,
        BitVec.toInt_bmod_cancel]

/-- A bitwise operator computes its exact result modulo the width. -/
theorem toInt_bitwise (operator : BitwiseOperator)
    (left right : BitVec width) :
    (bitwise operator left right).toInt =
      (operator.exact left.toInt right.toInt).bmod (2 ^ width) := by
  have leftBits := BitVec.ofInt_toInt (x := left)
  have rightBits := BitVec.ofInt_toInt (x := right)
  have sameBits : bitwise operator left right =
      BitVec.ofInt width (operator.exact left.toInt right.toInt) := by
    apply BitVec.eq_of_getLsbD_eq
    intro index inside
    rw [getLsbD_ofInt]
    generalize left.toInt = leftValue at *
    generalize right.toInt = rightValue at *
    subst leftBits rightBits
    cases operator with
    | or =>
        simp only [bitwise, BitwiseOperator.exact, BitVec.getLsbD_or,
          getLsbD_ofInt, inside, Int.testBit_lor, decide_true, Bool.true_and]
    | xor =>
        simp only [bitwise, BitwiseOperator.exact, BitVec.getLsbD_xor,
          getLsbD_ofInt, inside, Int.testBit_lxor, decide_true, Bool.true_and]
    | and =>
        simp only [bitwise, BitwiseOperator.exact, BitVec.getLsbD_and,
          getLsbD_ofInt, inside, Int.testBit_land, decide_true, Bool.true_and]
  rw [sameBits, BitVec.toInt_ofInt]

/-- A shift computes its exact result modulo the width, by as many places as
the distance leaves modulo the width. -/
theorem toInt_shift (operator : ShiftOperator) (value : BitVec width)
    (distance : BitVec 32) :
    (shift operator value distance).toInt =
      (operator.exact width value.toInt (distance.toNat % width)).bmod
        (2 ^ width) := by
  rw [shift.eq_def]
  generalize distance.toNat % width = places
  have powerCast : (2 : Int) ^ places = ((2 ^ places : Nat) : Int) := by
    norm_cast
  have powerNonneg : (0 : Int) ≤ 2 ^ places := by
    rw [powerCast]
    exact Int.natCast_nonneg _
  cases operator with
  | left =>
      simp only [ShiftOperator.exact]
      rw [BitVec.toInt_shiftLeft, BitVec.toInt_eq_toNat_bmod,
        Int.bmod_mul_bmod, Nat.shiftLeft_eq, Int.natCast_mul, powerCast]
  | right =>
      simp only [ShiftOperator.exact]
      rw [Int.fdiv_eq_ediv_of_nonneg _ powerNonneg, powerCast,
        ← Int.shiftRight_eq_div_pow, ← BitVec.toInt_sshiftRight,
        BitVec.toInt_bmod_cancel]
  | rightUnsigned =>
      simp only [ShiftOperator.exact]
      rw [Int.fdiv_eq_ediv_of_nonneg _ powerNonneg, toInt_emod,
        powerCast, ← Int.natCast_ediv, ← Nat.shiftRight_eq_div_pow,
        ← BitVec.toNat_ushiftRight, ← BitVec.toInt_eq_toNat_bmod]

end Integer

end Formula
