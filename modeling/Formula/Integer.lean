import Formula.Operator

/-!
Integers of a fixed width. Results that do not fit wrap around; only division
and remainder by zero have no result.
-/

namespace Formula.Integer

variable {width : Nat}

/-- The result of an arithmetic operator, unless it divides by zero. Quotients
are cut off toward zero and remainders keep the sign of the dividend. -/
def arithmetic (operator : ArithmeticOperator) (left right : BitVec width) :
    Option (BitVec width) :=
  match operator with
  | .add => some (left + right)
  | .subtract => some (left - right)
  | .multiply => some (left * right)
  | .divide => if right = 0 then none else some (left.sdiv right)
  | .remainder => if right = 0 then none else some (left.srem right)

def bitwise (operator : BitwiseOperator) (left right : BitVec width) :
    BitVec width :=
  match operator with
  | .or => left ||| right
  | .xor => left ^^^ right
  | .and => left &&& right

/-- The result of a shift. The distance, read without a sign, counts modulo the
width; a right shift fills with copies of the sign or with zeros. -/
def shift (operator : ShiftOperator) (value : BitVec width)
    (distance : BitVec 32) : BitVec width :=
  let places := distance.toNat % width
  match operator with
  | .left => value <<< places
  | .right => value.sshiftRight places
  | .rightUnsigned => value >>> places

def order (left right : BitVec width) : Ordering :=
  compare left.toInt right.toInt

end Formula.Integer
