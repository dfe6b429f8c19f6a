import Formula.Dictionary
import Formula.Source.Lexeme
import Formula.Source.NodeTable

/-!
Reading the lexemes of a source by precedence. Operators that wait for an
operand and the operands read so far stand on two stacks, so the depth of an
expression is bounded by its limit alone.
-/

namespace Formula

abbrev Keywords := Dictionary String Operand

namespace Keywords

/-- The truth values and `null`. -/
def standard : Keywords :=
  .ofList
    [("true", .constant (.boolean true)),
      ("false", .constant (.boolean false)),
      ("null", .constant .null)]

/-- The operand that a word stands for: its own reference unless it is a
keyword. -/
def operand (keywords : Keywords) (word : String) : Operand :=
  (keywords.get? word).getD (.reference word)

end Keywords

inductive Pending
  | unary (operator : UnaryOperator) (offset : Nat)
  | binary (operator : BinaryOperator) (offset : Nat)
  | group (offset : Nat)
  deriving DecidableEq, Repr

namespace Pending

/-- Whether a waiting operator takes its operands before a binary operator
that follows does. -/
def bindsBefore (next : BinaryOperator) : Pending → Bool
  | .unary _ _ => next.precedence ≤ UnaryOperator.precedence
  | .binary operator _ => next.precedence ≤ operator.precedence
  | .group _ => false

/-- Whether an operator waits, and not a parenthesis. -/
def isOperator : Pending → Bool
  | .unary _ _ | .binary _ _ => true
  | .group _ => false

end Pending

/-- The owner of a member whose name comes next, and the byte of the operator
that selects the member. -/
structure Selection where
  owner : Nat
  offset : Nat
  deriving DecidableEq, Repr

namespace NodeTable

def reduce (limit : Nat) (table : NodeTable) :
    Pending → Except Error NodeTable
  | .unary operator offset => do
      let (operand, table) ← table.pop
      table.push limit offset (.unary operator) (some operand) none
  | .binary operator offset => do
      let (right, table) ← table.pop
      let (left, table) ← table.pop
      table.push limit offset (.binary operator) (some left) (some right)
  | .group offset => .error (.written offset .unclosedOpen)

/-- Gives waiting operators their operands, latest first, as long as they are
accepted. -/
def reduceWhile (limit : Nat) (accepts : Pending → Bool) (table : NodeTable) :
    List Pending → Except Error (NodeTable × List Pending)
  | [] => .ok (table, [])
  | top :: rest =>
      if accepts top then do
        let table ← table.reduce limit top
        reduceWhile limit accepts table rest
      else .ok (table, top :: rest)

end NodeTable

/-- The sub-expressions read so far, what waits for operands, latest first, and
the selection that waits for a name. -/
structure Parser where
  table : NodeTable
  pending : List Pending
  selection? : Option Selection

namespace Parser

def initial : Parser := ⟨.empty, [], none⟩

def addOperand (limit : Nat) (parser : Parser) (offset : Nat)
    (operand : Operand) : Except Error Parser := do
  let table ← parser.table.push limit offset (.operand operand) none none
  return { parser with table }

/-- The state after a binary operator. Operators that bind before it take their
operands first. A selection claims its owner at once. -/
def addBinary (limit : Nat) (parser : Parser) (offset : Nat)
    (operator : BinaryOperator) : Except Error Parser := do
  let (table, pending) ←
    parser.table.reduceWhile limit (Pending.bindsBefore operator)
      parser.pending
  if operator = .member then
    let (owner, table) ← table.pop
    return ⟨table, pending, some ⟨owner, offset⟩⟩
  else return ⟨table, .binary operator offset :: pending, none⟩

/-- The state after the name of a member, which completes the selection. -/
def addMemberName (limit : Nat) (parser : Parser) (offset : Nat)
    (name : String) : Except Error Parser :=
  match parser.selection? with
  | none => .error (.malformed .missingOperand)
  | some selection => do
      let table ←
        parser.table.push limit offset (.operand (.reference name)) none none
      let (named, table) ← table.pop
      let table ←
        table.push limit selection.offset (.binary .member)
          (some selection.owner) (some named)
      return ⟨table, parser.pending, none⟩

def closeGroup (limit : Nat) (parser : Parser) (offset : Nat) :
    Except Error Parser := do
  let (table, pending) ←
    parser.table.reduceWhile limit Pending.isOperator parser.pending
  match pending with
  | [] => .error (.written offset .unmatchedClose)
  | _ :: rest => return ⟨table, rest, none⟩

def add (keywords : Keywords) (limit : Nat) (parser : Parser)
    (placed : PlacedLexeme) : Except Error Parser :=
  match placed.lexeme with
  | .constant value => parser.addOperand limit placed.offset (.constant value)
  | .word name =>
      parser.addOperand limit placed.offset (keywords.operand name)
  | .memberName name => parser.addMemberName limit placed.offset name
  | .unary operator =>
      .ok { parser with
        pending := .unary operator placed.offset :: parser.pending }
  | .binary operator => parser.addBinary limit placed.offset operator
  | .opening =>
      .ok { parser with pending := .group placed.offset :: parser.pending }
  | .closing => parser.closeGroup limit placed.offset

/-- The root and the nodes of the expression that is complete at the end of the
source. -/
def finish (limit : Nat) (parser : Parser) :
    Except Error (Nat × Array Node) := do
  let (table, pending) ←
    parser.table.reduceWhile limit Pending.isOperator parser.pending
  match pending with
  | .group offset :: _ => .error (.written offset .unclosedOpen)
  | _ =>
      let (root, table) ← table.pop
      return (root, table.nodes)

/-- The root and the nodes of the expression that a list of lexemes forms, no
higher than `limit`. -/
def ofLexemes (keywords : Keywords) (limit : Nat) (list : LexemeList) :
    Except Error (Nat × Array Node) := do
  let parser ← list.lexemes.foldlM (add keywords limit) initial
  match list.error? with
  | some error => .error error
  | none => parser.finish limit

def ofSource (keywords : Keywords) (limit : Nat) (source : String) :
    Except Error (Nat × Array Node) :=
  ofLexemes keywords limit (.ofSource source)

end Parser

end Formula
