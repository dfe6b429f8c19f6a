import Formula.Error

/-!
The types of results, from the types of operands.
-/

namespace Formula

inductive EqualityRule
  | numeric
  | boolean
  | reference
  deriving DecidableEq, Repr

namespace EqualityRule

def name : EqualityRule → String
  | .numeric => "Numeric"
  | .boolean => "Boolean"
  | .reference => "Reference"

end EqualityRule

namespace StaticType

/-- The kind in which two numbers or their wrappers meet. -/
def promote? (left right : StaticType) : Option NumericKind :=
  match left.numeric?, right.numeric? with
  | some left, some right => some (left.promote right)
  | _, _ => none

def promoteIntegral? (left right : StaticType) : Option NumericKind :=
  match left.numeric?, right.numeric? with
  | some left, some right =>
      if left.isIntegral && right.isIntegral then some (left.promote right)
      else none
  | _, _ => none

def isTextOrObject (type : StaticType) : Bool :=
  match type.kind with
  | .string | .object _ => true
  | _ => false

/-- How values of two types are compared for equality, if they can be. A
wrapper is compared with `null` by reference and with a primitive by value. -/
def equality? (left right : StaticType) : Option EqualityRule :=
  if (left.promote? right).isSome then some .numeric
  else if left.isBoolean && right.isBoolean then some .boolean
  else if left.kind = .null ∧ right.isReference then some .reference
  else if right.kind = .null ∧ left.isReference then some .reference
  else if left.isTextOrObject && right.isTextOrObject then some .reference
  else none

/-- A primitive type, or its wrapper if both operands are wrappers. -/
def boxedIfBoth (left right : StaticType) (kind : PrimitiveKind) :
    StaticType :=
  ⟨.primitive kind, left.isWrapper && right.isWrapper⟩

/-- The type of the result of a binary operator, if the operator is defined on
the types of its operands. -/
def binary? (operator : BinaryOperator) (left right : StaticType) :
    Option StaticType :=
  match operator with
  | .arithmetic operator =>
      if operator = .add ∧ (left.isString || right.isString) then some string
      else
        (left.promote? right).map fun kind =>
          boxedIfBoth left right (.number kind)
  | .bitwise _ =>
      if left.isBoolean && right.isBoolean then
        some (boxedIfBoth left right .boolean)
      else
        (left.promoteIntegral? right).map fun kind =>
          boxedIfBoth left right (.number kind)
  | .shift _ =>
      match left.numeric?, left.promoteIntegral? right with
      | some kind, some _ => some (number kind)
      | _, _ => none
  | .logical _ =>
      if left.isBoolean && right.isBoolean then some boolean else none
  | .equality _ => (left.equality? right).map fun _ => boolean
  | .relational _ => (left.promote? right).map fun _ => boolean
  | .member => none

/-- The type of the result of a unary operator, if the operator is defined on
the type of its operand. -/
def unary? (operator : UnaryOperator) (operand : StaticType) :
    Option StaticType :=
  match operator with
  | .negate | .plus => operand.numeric?.map number
  | .not => if operand.isBoolean then some boolean else none
  | .complement =>
      match operand.numeric? with
      | some kind => if kind.isIntegral then some (number kind) else none
      | none => none

def binary (operator : BinaryOperator) (left right : StaticType) :
    Except Error StaticType :=
  match binary? operator left right with
  | some result => .ok result
  | none => .error (.mismatch (.binary operator) (.two left right))

def unary (operator : UnaryOperator) (operand : StaticType) :
    Except Error StaticType :=
  match unary? operator operand with
  | some result => .ok result
  | none => .error (.mismatch (.unary operator) (.one operand))

end StaticType

/-! ## Members -/

abbrev MemberTypes := String → String → Except Error StaticType

namespace MemberTypes

def none : MemberTypes := fun className name =>
  .error (.unknownMember className name)

def insert (members : MemberTypes) (className name : String)
    (type : StaticType) : MemberTypes := fun askedClass askedName =>
  if askedClass = className ∧ askedName = name then .ok type
  else members askedClass askedName

end MemberTypes

end Formula
