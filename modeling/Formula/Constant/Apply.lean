import Formula.Error

/-!
How values combine under the operators.
-/

namespace Formula

abbrev ObjectMembers := HostObject → String → Option Constant

def LogicalOperator.apply : LogicalOperator → Bool → Bool → Bool
  | .or, left, right => left || right
  | .and, left, right => left && right

def BitwiseOperator.applyBool : BitwiseOperator → Bool → Bool → Bool
  | .or, left, right => left || right
  | .xor, left, right => left != right
  | .and, left, right => left && right

/-- The truth value of an equality operator, given whether its sides are
equal. -/
def EqualityOperator.apply : EqualityOperator → Bool → Bool
  | .equal, same => same
  | .notEqual, same => !same

namespace Constant

/-- Whether two values are equal, if they can be compared: numbers by value,
objects by identity, and a string, `null` and an object with each other. -/
def equals? : Constant → Constant → Option Bool
  | .number left, .number right =>
      some ((left.pair right).order? == some .eq)
  | .boolean left, .boolean right => some (left == right)
  | .string left, .string right => some (left == right)
  | .object left, .object right => some (left.identity == right.identity)
  | .null, .null => some true
  | .null, .string _ | .null, .object _ => some false
  | .string _, .null | .string _, .object _ => some false
  | .object _, .null | .object _, .string _ => some false
  | _, _ => none

/-- The outcome of an operator on two values, if the operator is defined on
them. -/
def applyDefined? (operator : BinaryOperator) (left right : Constant) :
    Option (Except Error Constant) :=
  match operator, left, right with
  | .arithmetic .add, .string left, right =>
      some (.ok (.string (left ++ right.text)))
  | .arithmetic .add, left, .string right =>
      some (.ok (.string (left.text ++ right)))
  | .arithmetic operator, .number left, .number right =>
      match (left.pair right).arithmetic? operator with
      | some value => some (.ok (.number value))
      | none => some (.error .divisionByZero)
  | .bitwise operator, .boolean left, .boolean right =>
      some (.ok (.boolean (operator.applyBool left right)))
  | .bitwise operator, .number left, .number right =>
      ((left.pair right).bitwise? operator).map fun value => .ok (.number value)
  | .shift operator, .number left, .number right =>
      (left.shift? operator right).map fun value => .ok (.number value)
  | .logical operator, .boolean left, .boolean right =>
      some (.ok (.boolean (operator.apply left right)))
  | .equality operator, left, right =>
      (left.equals? right).map fun same => .ok (.boolean (operator.apply same))
  | .relational operator, .number left, .number right =>
      some (.ok (.boolean ((left.pair right).order?.any operator.holds)))
  | _, _, _ => none

/-- The result of a binary operator on two values. Member selection is not
among them, for its right side is a name. -/
def apply (operator : BinaryOperator) (left right : Constant) :
    Except Error Constant :=
  (applyDefined? operator left right).getD <|
    .error (.unsupported (.binary operator) (.two left.kind right.kind))

def applyUnary (operator : UnaryOperator) (operand : Constant) :
    Except Error Constant :=
  let unsupported : Error := .unsupported (.unary operator) (.one operand.kind)
  match operator, operand with
  | .negate, .number value => .ok (.number value.negate)
  | .plus, .number value => .ok (.number value)
  | .not, .boolean value => .ok (.boolean !value)
  | .complement, .number value =>
      match value.complement? with
      | some inverted => .ok (.number inverted)
      | none => .error unsupported
  | _, _ => .error unsupported

/-- The result of a logical operator that its left side alone decides. -/
def decides? (operator : LogicalOperator) (left : Constant) :
    Option Constant :=
  match operator, left with
  | .or, .boolean true => some left
  | .and, .boolean false => some left
  | _, _ => none

def select (members : ObjectMembers) (owner : Constant) (name : String) :
    Except Error Constant :=
  match owner with
  | .object host =>
      match members host name with
      | some value => .ok value
      | none => .error (.unknownMember host.className name)
  | _ => .error (.unsupported (.binary .member) (.member owner.kind name))

end Constant

end Formula
