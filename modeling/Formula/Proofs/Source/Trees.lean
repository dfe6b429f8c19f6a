import Formula.Proofs.Expression
import Formula.Source.Parser

/-!
# Grouping into trees

The two stacks of reading, with trees for operands in place of the indices of
nodes. What is read is described on trees; that reading with a table of nodes
goes the same way is proved apart.
-/

namespace Formula

structure MeasuredExpression where
  expression : Expression
  height : Nat

/-- The operands read so far and what waits for operands, latest first. -/
structure Grouping where
  operands : List MeasuredExpression
  pending : List Pending

namespace Grouping

def initial : Grouping := ⟨[], []⟩

/-- Adds an expression that begins at `offset`, unless it is too high. -/
def pushOperand (limit offset : Nat) (operands : List MeasuredExpression)
    (operand : MeasuredExpression) : Except Error (List MeasuredExpression) :=
  if limit < operand.height then
    .error (.written offset (.nestedTooDeep limit))
  else .ok (operand :: operands)

def applyPending (limit : Nat) (operands : List MeasuredExpression) :
    Pending → Except Error (List MeasuredExpression)
  | .unary operator offset =>
      match operands with
      | operand :: rest =>
          pushOperand limit offset rest
            ⟨.unary operator operand.expression, operand.height + 1⟩
      | [] => .error (.malformed .missingOperand)
  | .binary operator offset =>
      match operands with
      | right :: left :: rest =>
          pushOperand limit offset rest
            ⟨.binary operator left.expression right.expression,
              max left.height right.height + 1⟩
      | _ => .error (.malformed .missingOperand)
  | .group offset => .error (.written offset .unclosedOpen)

/-- Gives waiting operators their operands, latest first, as long as they are
accepted. -/
def reduceWhile (limit : Nat) (accepts : Pending → Bool)
    (operands : List MeasuredExpression) :
    List Pending → Except Error Grouping
  | [] => .ok ⟨operands, []⟩
  | top :: rest =>
      if accepts top then
        match applyPending limit operands top with
        | .ok operands => reduceWhile limit accepts operands rest
        | .error error => .error error
      else .ok ⟨operands, top :: rest⟩

def addOperand (limit : Nat) (state : Grouping) (offset : Nat)
    (operand : Operand) : Except Error Grouping :=
  match pushOperand limit offset state.operands ⟨.operand operand, 1⟩ with
  | .ok operands => .ok ⟨operands, state.pending⟩
  | .error error => .error error

/-- The state after a binary operator. Operators that bind before it take their
operands first. -/
def addBinary (limit : Nat) (state : Grouping) (offset : Nat)
    (operator : BinaryOperator) : Except Error Grouping :=
  match reduceWhile limit (Pending.bindsBefore operator) state.operands
    state.pending with
  | .ok ⟨operands, pending⟩ =>
      .ok ⟨operands, .binary operator offset :: pending⟩
  | .error error => .error error

/-- The state after the name of a member: the selection, which waits last, is
complete. -/
def addMemberName (limit : Nat) (state : Grouping) (offset : Nat)
    (name : String) : Except Error Grouping :=
  match addOperand limit state offset (.reference name) with
  | .error error => .error error
  | .ok ⟨operands, top :: rest⟩ =>
      match applyPending limit operands top with
      | .ok operands => .ok ⟨operands, rest⟩
      | .error error => .error error
  | .ok ⟨operands, []⟩ => .ok ⟨operands, []⟩

def closeGroup (limit : Nat) (state : Grouping) (offset : Nat) :
    Except Error Grouping :=
  match reduceWhile limit Pending.isOperator state.operands state.pending with
  | .error error => .error error
  | .ok ⟨_, []⟩ => .error (.written offset .unmatchedClose)
  | .ok ⟨operands, _ :: rest⟩ => .ok ⟨operands, rest⟩

def add (keywords : Keywords) (limit : Nat) (state : Grouping)
    (placed : PlacedLexeme) : Except Error Grouping :=
  match placed.lexeme with
  | .constant value => addOperand limit state placed.offset (.constant value)
  | .word name => addOperand limit state placed.offset (keywords.operand name)
  | .memberName name => addMemberName limit state placed.offset name
  | .unary operator =>
      .ok ⟨state.operands, .unary operator placed.offset :: state.pending⟩
  | .binary operator => addBinary limit state placed.offset operator
  | .opening => .ok ⟨state.operands, .group placed.offset :: state.pending⟩
  | .closing => closeGroup limit state placed.offset

def addAll (keywords : Keywords) (limit : Nat) (state : Grouping) :
    List PlacedLexeme → Except Error Grouping
  | [] => .ok state
  | placed :: rest =>
      match add keywords limit state placed with
      | .ok next => addAll keywords limit next rest
      | .error error => .error error

def finish (limit : Nat) (state : Grouping) : Except Error Expression :=
  match reduceWhile limit Pending.isOperator state.operands state.pending with
  | .error error => .error error
  | .ok ⟨_, .group offset :: _⟩ => .error (.written offset .unclosedOpen)
  | .ok ⟨root :: _, _⟩ => .ok root.expression
  | .ok ⟨[], _⟩ => .error (.malformed .missingOperand)

end Grouping

namespace Expression

/-- The expression that a list of lexemes forms, no higher than `limit`. -/
def ofLexemes (keywords : Keywords) (limit : Nat) (list : LexemeList) :
    Except Error Expression :=
  match Grouping.initial.addAll keywords limit list.lexemes with
  | .error error => .error error
  | .ok state =>
      match list.error? with
      | some error => .error error
      | none => state.finish limit

/-- The expression that a source is, no higher than `limit`. -/
def ofSource (keywords : Keywords) (limit : Nat) (source : String) :
    Except Error Expression :=
  ofLexemes keywords limit (.ofSource source)

end Expression

end Formula
