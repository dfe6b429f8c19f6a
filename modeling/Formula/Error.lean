import Formula.StaticType

/-!
Everything that can go wrong with an expression, and the words for it.
-/

namespace Formula

/-! ## Errors of the written form -/

inductive SyntaxFault
  | unexpected (expected : String) (found : Option Char)
  | incompleteOperator (text : String)
  | exponentWithoutDigits
  | literalOutOfRange
  | literalRunsOn
  | hexadecimalWithoutDigits
  | unterminatedString
  | escape (fault : EscapeFault)
  | unmatchedClose
  | unclosedOpen
  | nestedTooDeep (limit : Nat)
  deriving DecidableEq, Repr

def SyntaxFault.message : SyntaxFault → String
  | .unexpected expected none => s!"expected {expected}, found end of input"
  | .unexpected expected (some char) =>
      if char.toNat < 128 then s!"expected {expected}, found '{char}'"
      else s!"non-ASCII character '{char}' outside a string literal"
  | .incompleteOperator text => s!"incomplete operator '{text}'"
  | .exponentWithoutDigits => "exponent has no digits"
  | .literalOutOfRange => "numeric literal out of range"
  | .literalRunsOn => "invalid character in numeric literal"
  | .hexadecimalWithoutDigits => "hex literal has no digits"
  | .unterminatedString => "unterminated string literal"
  | .escape fault => fault.message
  | .unmatchedClose => "unmatched ')'"
  | .unclosedOpen => "unclosed '('"
  | .nestedTooDeep limit => s!"expression nested deeper than {limit}"

/-! ## Errors of the structure -/

inductive StructureFault
  | empty
  | leftOver (count : Nat)
  | missingOperand
  | usedTwice
  | missingMemberName
  | nestedTooDeep (limit : Nat)
  | endlessReference (name : String) (limit : Nat)
  | unknownLiteral
  | immediateLiteral
  deriving DecidableEq, Repr

def StructureFault.message : StructureFault → String
  | .empty => "empty token stream"
  | .leftOver count =>
      s!"{count} token(s) left over after a complete expression"
  | .missingOperand => "operator is missing an operand"
  | .usedTwice => "sub-expression used twice"
  | .missingMemberName => "member selection needs a member name"
  | .nestedTooDeep limit => s!"nesting exceeds maximum depth of {limit}"
  | .endlessReference name limit =>
      s!"reference chain through '{name}' exceeds maximum depth of {limit}"
  | .unknownLiteral => "literal index out of range"
  | .immediateLiteral => "booleans and null have immediate encodings"

/-! ## All errors -/

inductive Operands (α : Type)
  | one (operand : α)
  | two (left right : α)
  | member (owner : α) (name : String)
  deriving DecidableEq, Repr

/-- The description of operands, given the names of their kinds or types. -/
def Operands.text {α : Type} (name : α → String) : Operands α → String
  | .one operand => name operand
  | .two left right => s!"{name left} and {name right}"
  | .member owner selected => s!"{name owner} and {selected}"

/-- The errors of reading, evaluating and compiling an expression. -/
inductive Error
  | written (offset : Nat) (fault : SyntaxFault)
  | noOperator (char : Char)
  | unsupported (operator : Operator) (operands : Operands Kind)
  | mismatch (operator : Operator) (operands : Operands StaticType)
  | unknownReference (name : String)
  | malformed (fault : StructureFault)
  | divisionByZero
  | tooManyLocals
  | tooManyConstants
  deriving DecidableEq, Repr

namespace Error

/-- An object or class without a member of this name. -/
def unknownMember (className name : String) : Error :=
  .unknownReference (className ++ "." ++ name)

def message : Error → String
  | .written offset fault =>
      s!"syntax error at offset {offset}: {fault.message}"
  | .noOperator char => s!"no operator starts with '{char}'"
  | .unsupported operator operands =>
      s!"operator '{operator.symbol}' cannot be applied to " ++
        operands.text Kind.name
  | .mismatch operator operands =>
      s!"type mismatch: operator '{operator.symbol}' cannot be applied to " ++
        operands.text StaticType.name
  | .unknownReference name => s!"unknown reference '{name}'"
  | .malformed fault => s!"malformed expression: {fault.message}"
  | .divisionByZero => "division by zero"
  | .tooManyLocals => "too many local variables (limit: 65535 slots)"
  | .tooManyConstants => "too many constants (limit: 65535)"

end Error

end Formula
