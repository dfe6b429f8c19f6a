import Formula.LocalMap
import Formula.Reduction
import Formula.Typing

/-!
Expressions with the types of their parts. They are built by the same reading
of tokens as evaluation, with literals put into a table and names into slots.
-/

namespace Formula

/-- An expression whose literals are positions in a table, whose references are
slots, and whose parts carry the types of their results. -/
inductive TypedExpression
  | literal (index : Nat) (type : StaticType)
  | slot (slot : Address) (type : StaticType)
  | unary (operator : UnaryOperator) (operand : TypedExpression)
      (type : StaticType)
  | member (owner : TypedExpression) (name : String) (type : StaticType)
  | binary (operator : BinaryOperator) (left right : TypedExpression)
      (type : StaticType)

namespace TypedExpression

def type : TypedExpression → StaticType
  | .literal _ type => type
  | .slot _ type => type
  | .unary _ _ type => type
  | .member _ _ type => type
  | .binary _ _ _ type => type

def size : TypedExpression → Nat
  | .literal _ _ | .slot _ _ => 1
  | .unary _ inner _ => inner.size + 1
  | .member owner _ _ => owner.size + 1
  | .binary _ left right _ => left.size + right.size + 1

/-- Adds an operand: a value goes to the end of the table of literals. -/
def ofOperand (locals : LocalMap) (operand : Operand)
    (literals : Array Constant) :
    Except Error TypedExpression × Array Constant :=
  match operand with
  | .constant value =>
      (.ok (.literal literals.size (.ofConstant value)), literals.push value)
  | .reference name =>
      match locals.get name with
      | .ok held => (.ok (.slot held.slot held.type), literals)
      | .error error => (.error error, literals)

def ofUnary (operator : UnaryOperator) (operand : TypedExpression) :
    Except Error TypedExpression :=
  (StaticType.unary operator operand.type).map (.unary operator operand)

def ofBinary (operator : BinaryOperator) (left right : TypedExpression) :
    Except Error TypedExpression :=
  (StaticType.binary operator left.type right.type).map
    (.binary operator left right)

def ofMember (members : MemberTypes) (owner : TypedExpression) :
    Operand → Except Error TypedExpression
  | .constant value =>
      .error
        (.mismatch (.binary .member) (.two owner.type (.ofConstant value)))
  | .reference name =>
      match owner.type.kind with
      | .object className =>
          (members className name).map (.member owner name)
      | _ => .error (.mismatch (.binary .member) (.member owner.type name))

/-- The meaning of the parts of an expression as typed expressions. Nothing is
left out: both sides of a logical operator are typed. -/
def typing (locals : LocalMap) (members : MemberTypes) :
    Algebra (Array Constant) TypedExpression where
  operand := ofOperand locals
  unary := ofUnary
  binary := ofBinary
  member := ofMember members
  decides? := fun _ _ => none

end TypedExpression

structure TypedProgram where
  root : TypedExpression
  literals : Array Constant

def TypedProgram.ofTokens (locals : LocalMap) (members : MemberTypes)
    (limit : Nat) (tokens : List Token) : Except Error TypedProgram :=
  let reduction :=
    (TypedExpression.typing locals members).reduce limit #[] tokens
  reduction.result.map fun root => ⟨root, reduction.state⟩

end Formula
