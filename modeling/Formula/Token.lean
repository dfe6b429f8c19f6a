import Formula.Constant.Apply

/-!
The tokens of an expression in the order operator, left operand, right operand.
-/

namespace Formula

inductive Operand
  | constant (value : Constant)
  | reference (name : String)
  deriving DecidableEq, Repr

def Operand.text : Operand → String
  | .constant value => value.text
  | .reference name => name

inductive Token
  | operand (operand : Operand)
  | unary (operator : UnaryOperator)
  | binary (operator : BinaryOperator)
  deriving DecidableEq, Repr

namespace Token

def arity : Token → Nat
  | .operand _ => 0
  | .unary _ => 1
  | .binary _ => 2

/-- The text of a token. A letter tells a unary operator from the binary one of
the same symbol. -/
def text : Token → String
  | .operand (.constant value) => value.literalText
  | .operand (.reference name) => name
  | .unary operator => operator.symbol ++ "u"
  | .binary operator => operator.symbol

def listText (tokens : List Token) : String :=
  " ".intercalate (tokens.map text)

end Token

end Formula
