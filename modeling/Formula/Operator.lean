/-!
The operators of the expression language: their classes, their written symbols
and how tightly they bind.
-/

namespace Formula

/-- The operators on truth values that may skip their right operand. -/
inductive LogicalOperator
  | or
  | and
  deriving DecidableEq, Repr

/-- The operators that combine integers bit by bit and booleans strictly. -/
inductive BitwiseOperator
  | or
  | xor
  | and
  deriving DecidableEq, Repr

inductive EqualityOperator
  | equal
  | notEqual
  deriving DecidableEq, Repr

inductive RelationalOperator
  | less
  | greater
  | lessOrEqual
  | greaterOrEqual
  deriving DecidableEq, Repr

/-- The shifts: left, right keeping the sign, and right filling with zeros. -/
inductive ShiftOperator
  | left
  | right
  | rightUnsigned
  deriving DecidableEq, Repr

/-- The arithmetic operators; `add` also joins strings. -/
inductive ArithmeticOperator
  | add
  | subtract
  | multiply
  | divide
  | remainder
  deriving DecidableEq, Repr

/-- The binary operators, grouped by the rule that evaluates them. -/
inductive BinaryOperator
  | logical (operator : LogicalOperator)
  | bitwise (operator : BitwiseOperator)
  | equality (operator : EqualityOperator)
  | relational (operator : RelationalOperator)
  | shift (operator : ShiftOperator)
  | arithmetic (operator : ArithmeticOperator)
  | member
  deriving DecidableEq, Repr

inductive UnaryOperator
  | negate
  | plus
  | not
  | complement
  deriving DecidableEq, Repr

inductive Operator
  | binary (operator : BinaryOperator)
  | unary (operator : UnaryOperator)
  deriving DecidableEq, Repr

/-! ## Symbols -/

namespace BinaryOperator

/-- Every binary operator, from the loosest to the tightest. -/
def all : List BinaryOperator :=
  [.logical .or, .logical .and,
    .bitwise .or, .bitwise .xor, .bitwise .and,
    .equality .equal, .equality .notEqual,
    .relational .less, .relational .greater,
    .relational .lessOrEqual, .relational .greaterOrEqual,
    .shift .left, .shift .right, .shift .rightUnsigned,
    .arithmetic .add, .arithmetic .subtract,
    .arithmetic .multiply, .arithmetic .divide, .arithmetic .remainder,
    .member]

theorem mem_all (operator : BinaryOperator) : operator ∈ all := by
  rcases operator with (_ | _) | (_ | _ | _) | (_ | _) | (_ | _ | _ | _) |
    (_ | _ | _) | (_ | _ | _ | _ | _) | _ <;> decide

def symbol : BinaryOperator → String
  | .logical .or => "||"
  | .logical .and => "&&"
  | .bitwise .or => "|"
  | .bitwise .xor => "^"
  | .bitwise .and => "&"
  | .equality .equal => "=="
  | .equality .notEqual => "!="
  | .relational .less => "<"
  | .relational .greater => ">"
  | .relational .lessOrEqual => "<="
  | .relational .greaterOrEqual => ">="
  | .shift .left => "<<"
  | .shift .right => ">>"
  | .shift .rightUnsigned => ">>>"
  | .arithmetic .add => "+"
  | .arithmetic .subtract => "-"
  | .arithmetic .multiply => "*"
  | .arithmetic .divide => "/"
  | .arithmetic .remainder => "%"
  | .member => "."

/-- How tightly the operator binds; the greater level binds first. Operators
of one level group to the left. -/
def precedence : BinaryOperator → Nat
  | .logical .or => 2
  | .logical .and => 3
  | .bitwise .or => 4
  | .bitwise .xor => 5
  | .bitwise .and => 6
  | .equality _ => 7
  | .relational _ => 8
  | .shift _ => 9
  | .arithmetic .add | .arithmetic .subtract => 10
  | .arithmetic .multiply | .arithmetic .divide | .arithmetic .remainder => 11
  | .member => 13

/-- Whether the left operand alone may decide the result. -/
def isLogical : BinaryOperator → Bool
  | .logical _ => true
  | _ => false

def isBitwise : BinaryOperator → Bool
  | .bitwise _ => true
  | _ => false

def isEquality : BinaryOperator → Bool
  | .equality _ => true
  | _ => false

def isRelational : BinaryOperator → Bool
  | .relational _ => true
  | _ => false

def isShift : BinaryOperator → Bool
  | .shift _ => true
  | _ => false

/-- Whether the operator is one of the five of arithmetic. -/
def isArithmetic : BinaryOperator → Bool
  | .arithmetic _ => true
  | _ => false

end BinaryOperator

namespace UnaryOperator

def all : List UnaryOperator :=
  [.negate, .plus, .not, .complement]

def symbol : UnaryOperator → String
  | .negate => "-"
  | .plus => "+"
  | .not => "!"
  | .complement => "~"

/-- Unary operators bind tighter than every binary operator except member
selection. -/
def precedence : Nat := 12

end UnaryOperator

def Operator.symbol : Operator → String
  | .binary operator => operator.symbol
  | .unary operator => operator.symbol

end Formula
