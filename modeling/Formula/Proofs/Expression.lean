import Formula.Token

/-!
# Expressions

Expressions as trees, and the list of tokens that a tree is written as.
-/

namespace Formula

/-- An expression. The right side of a member selection is the reference that
bears the member's name. -/
inductive Expression
  | operand (operand : Operand)
  | unary (operator : UnaryOperator) (operand : Expression)
  | binary (operator : BinaryOperator) (left right : Expression)

namespace Expression

/-- The levels of a tree: one for an operand and one more for each operator
above it. -/
def height : Expression → Nat
  | .operand _ => 1
  | .unary _ inner => inner.height + 1
  | .binary _ left right => max left.height right.height + 1

theorem height_pos (expression : Expression) : 0 < expression.height := by
  cases expression <;> simp [height]

def tokens : Expression → List Token
  | .operand atom => [.operand atom]
  | .unary operator inner => .unary operator :: inner.tokens
  | .binary operator left right =>
      .binary operator :: (left.tokens ++ right.tokens)

end Expression

end Formula
