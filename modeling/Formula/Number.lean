import Formula.Binary
import Formula.Integer
import Formula.Kind

/-!
Numbers of the four kinds and the operators on them. Two numbers meet in the
wider of their kinds; a shift alone keeps the kind of its left side.
-/

namespace Formula

inductive Number
  | int (value : BitVec 32)
  | long (value : BitVec 64)
  | float (value : Single)
  | double (value : Double)
  deriving DecidableEq, Hashable, Repr

inductive NumberPair
  | int (left right : BitVec 32)
  | long (left right : BitVec 64)
  | float (left right : Single)
  | double (left right : Double)

namespace Number

def kind : Number → NumericKind
  | .int _ => .int
  | .long _ => .long
  | .float _ => .float
  | .double _ => .double

/-- The number in a wider kind; a number that is already as wide stays as it
is. -/
def widen (kind : NumericKind) : Number → Number
  | .int value =>
      match kind with
      | .int => .int value
      | .long => .long (value.signExtend 64)
      | .float => .float (.ofInt value.toInt)
      | .double => .double (.ofInt value.toInt)
  | .long value =>
      match kind with
      | .int | .long => .long value
      | .float => .float (.ofInt value.toInt)
      | .double => .double (.ofInt value.toInt)
  | .float value =>
      match kind with
      | .int | .long | .float => .float value
      | .double => .double value.convert
  | .double value => .double value

/-- Two numbers in the kind where they meet. -/
def pair : Number → Number → NumberPair
  | .int left, .int right => .int left right
  | .int left, .long right => .long (left.signExtend 64) right
  | .long left, .int right => .long left (right.signExtend 64)
  | .long left, .long right => .long left right
  | .int left, .float right => .float (.ofInt left.toInt) right
  | .long left, .float right => .float (.ofInt left.toInt) right
  | .float left, .int right => .float left (.ofInt right.toInt)
  | .float left, .long right => .float left (.ofInt right.toInt)
  | .float left, .float right => .float left right
  | .int left, .double right => .double (.ofInt left.toInt) right
  | .long left, .double right => .double (.ofInt left.toInt) right
  | .float left, .double right => .double left.convert right
  | .double left, .int right => .double left (.ofInt right.toInt)
  | .double left, .long right => .double left (.ofInt right.toInt)
  | .double left, .float right => .double left right.convert
  | .double left, .double right => .double left right

/-- The number with the other sign; the least integer has none and stays. -/
def negate : Number → Number
  | .int value => .int (-value)
  | .long value => .long (-value)
  | .float value => .float value.negate
  | .double value => .double value.negate

def complement? : Number → Option Number
  | .int value => some (.int (~~~value))
  | .long value => some (.long (~~~value))
  | .float _ | .double _ => none

/-- The lowest 32 bits of an integer, which are all that counts of a
distance. -/
def distance? : Number → Option (BitVec 32)
  | .int value => some value
  | .long value => some (value.truncate 32)
  | .float _ | .double _ => none

/-- A number shifted by an integer distance, if it is an integer itself. -/
def shift? (operator : ShiftOperator) (value distance : Number) :
    Option Number :=
  match value, distance.distance? with
  | .int value, some places => some (.int (Integer.shift operator value places))
  | .long value, some places =>
      some (.long (Integer.shift operator value places))
  | _, _ => none

end Number

/-- The rounded result of an arithmetic operator on floating-point numbers. -/
def Binary.arithmetic {format : FloatFormat} (operator : ArithmeticOperator)
    (left right : Binary format) : Binary format :=
  match operator with
  | .add => left.add right
  | .subtract => left.subtract right
  | .multiply => left.multiply right
  | .divide => left.divide right
  | .remainder => left.remainder right

namespace NumberPair

/-- The result of an arithmetic operator, unless it divides an integer by
zero. -/
def arithmetic? (operator : ArithmeticOperator) : NumberPair → Option Number
  | .int left right => (Integer.arithmetic operator left right).map .int
  | .long left right => (Integer.arithmetic operator left right).map .long
  | .float left right => some (.float (left.arithmetic operator right))
  | .double left right => some (.double (left.arithmetic operator right))

def bitwise? (operator : BitwiseOperator) : NumberPair → Option Number
  | .int left right => some (.int (Integer.bitwise operator left right))
  | .long left right => some (.long (Integer.bitwise operator left right))
  | .float _ _ | .double _ _ => none

def order? : NumberPair → Option Ordering
  | .int left right => some (Integer.order left right)
  | .long left right => some (Integer.order left right)
  | .float left right => left.compare? right
  | .double left right => left.compare? right

end NumberPair

def RelationalOperator.holds : RelationalOperator → Ordering → Bool
  | .less, order => order = .lt
  | .greater, order => order = .gt
  | .lessOrEqual, order => order ≠ .gt
  | .greaterOrEqual, order => order ≠ .lt

end Formula
