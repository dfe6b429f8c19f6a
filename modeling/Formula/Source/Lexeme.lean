import Formula.Source.Numeral
import Formula.Source.Quoted
import Formula.Token

/-!
The lexemes of a source. What a character means depends on what may stand next,
which the lexeme before it decides, so a source is cut into lexemes without
regard to precedence or nesting.
-/

namespace Formula

inductive Expectation
  | operand
  | operator
  | memberName
  deriving DecidableEq, Repr

inductive Lexeme
  | constant (value : Constant)
  | word (name : String)
  | memberName (name : String)
  | unary (operator : UnaryOperator)
  | binary (operator : BinaryOperator)
  | opening
  | closing
  deriving DecidableEq, Repr

def Lexeme.next : Lexeme → Expectation
  | .unary _ | .opening => .operand
  | .binary .member => .memberName
  | .binary _ => .operand
  | .constant _ | .word _ | .memberName _ | .closing => .operator

structure PlacedLexeme where
  offset : Nat
  lexeme : Lexeme
  deriving DecidableEq, Repr

structure LexemeList where
  lexemes : List PlacedLexeme
  error? : Option Error
  deriving DecidableEq, Repr

namespace Cursor

def numberLexeme (cursor : Cursor) (negative : Bool) :
    Except Error (Lexeme × Cursor) :=
  match cursor.number negative with
  | .ok (value, next) => .ok (.constant (.number value), next)
  | .error error => .error error

/-- The lexeme that follows where an operand is expected. A minus directly
before a number is part of the number. -/
def operandLexeme (cursor : Cursor) : Except Error (Lexeme × Cursor) :=
  if cursor.startsNumber then cursor.numberLexeme false
  else if cursor.peek? = some '"' then
    match cursor.string with
    | .ok (text, next) => .ok (.constant (.string text), next)
    | .error error => .error error
  else
    match cursor.identifier? with
    | some (name, next) => .ok (.word name, next)
    | none =>
        if cursor.peek? = some '(' then .ok (.opening, cursor.skip)
        else
          match cursor.operator? OperatorTable.unary with
          | .error error => .error error
          | .ok none => .error (cursor.unexpected "an operand")
          | .ok (some (operator, next)) =>
              if operator = .negate ∧ next.startsNumber then
                next.numberLexeme true
              else .ok (.unary operator, next)

def operatorLexeme (cursor : Cursor) : Except Error (Lexeme × Cursor) :=
  if cursor.peek? = some ')' then .ok (.closing, cursor.skip)
  else
    match cursor.operator? OperatorTable.binary with
    | .error error => .error error
    | .ok none => .error (cursor.unexpected "an operator")
    | .ok (some (operator, next)) => .ok (.binary operator, next)

/-- The lexeme that follows where the name of a member is expected. -/
def memberLexeme (cursor : Cursor) : Except Error (Lexeme × Cursor) :=
  match cursor.identifier? with
  | some (name, next) => .ok (.memberName name, next)
  | none => .error (cursor.unexpected "a member name")

def lexeme (cursor : Cursor) (expectation : Expectation) :
    Except Error (Lexeme × Cursor) :=
  match expectation with
  | .operand => cursor.operandLexeme
  | .operator => cursor.operatorLexeme
  | .memberName => cursor.memberLexeme

/-! ## Progress -/

theorem length_lt_of_identifier? {cursor next : Cursor} {name : String}
    (read : cursor.identifier? = some (name, next)) :
    next.rest.length < cursor.rest.length := by
  unfold identifier? at read
  split at read
  · rename_i starts
    simp only [Option.some.injEq, Prod.mk.injEq] at read
    obtain ⟨_, rfl⟩ := read
    refine length_span_lt ?_
    unfold startsIdentifier peek? at starts
    cases restEq : cursor.rest with
    | nil => simp [restEq] at starts
    | cons first rest =>
        have accepted : isIdentifierPart first = true := by
          simp [restEq] at starts
          simp [isIdentifierPart, starts]
        simp [span, restEq, accepted]
  · cases read

theorem length_lt_of_operator? {α : Type} {cursor next : Cursor}
    {table : OperatorTable α} {operator : α}
    (read : cursor.operator? table = .ok (some (operator, next))) :
    next.rest.length < cursor.rest.length := by
  unfold operator? at read
  split at read
  · cases read
  rename_i first rest restEq
  split at read
  · split at read
    · cases read
    rename_i started isStarted
    dsimp only at read
    split at read
    · cases read
      have one := OperatorTable.consumed_of_start? isStarted
      have more := consumed_le_longestMatch started rest
      have filled : 0 < cursor.rest.length := by simp [restEq]
      simp only [advance, List.length_drop, List.length_take]
      omega
    · cases read
  · cases read

theorem length_skip_lt_of_peek? {cursor : Cursor} {char : Char}
    (follows : cursor.peek? = some char) :
    cursor.skip.rest.length < cursor.rest.length :=
  length_skip_lt fun empty => by simp [peek?, empty] at follows

theorem length_lt_of_numberLexeme {cursor next : Cursor} {negative : Bool}
    {lexeme : Lexeme}
    (read : cursor.numberLexeme negative = .ok (lexeme, next)) :
    next.rest.length < cursor.rest.length := by
  unfold numberLexeme at read
  split at read
  · rename_i numberRead
    cases read
    exact (reaches_number numberRead).2
  · cases read

theorem length_lt_of_operandLexeme {cursor next : Cursor} {lexeme : Lexeme}
    (read : cursor.operandLexeme = .ok (lexeme, next)) :
    next.rest.length < cursor.rest.length := by
  unfold operandLexeme at read
  split at read
  · exact length_lt_of_numberLexeme read
  split at read
  · split at read
    · rename_i stringRead
      cases read
      exact (reaches_string stringRead).2
    · cases read
  split at read
  · rename_i identifierRead
    cases read
    exact length_lt_of_identifier? identifierRead
  split at read
  · rename_i opened
    cases read
    exact length_skip_lt_of_peek? opened
  split at read
  · cases read
  · cases read
  · rename_i operatorRead
    have shorter := length_lt_of_operator? operatorRead
    split at read
    · exact Nat.lt_trans (length_lt_of_numberLexeme read) shorter
    · cases read
      exact shorter

theorem length_lt_of_operatorLexeme {cursor next : Cursor} {lexeme : Lexeme}
    (read : cursor.operatorLexeme = .ok (lexeme, next)) :
    next.rest.length < cursor.rest.length := by
  unfold operatorLexeme at read
  split at read
  · rename_i closed
    cases read
    exact length_skip_lt_of_peek? closed
  split at read
  · cases read
  · cases read
  · rename_i operatorRead
    cases read
    exact length_lt_of_operator? operatorRead

theorem length_lt_of_lexeme {cursor next : Cursor}
    {expectation : Expectation} {lexeme : Lexeme}
    (read : cursor.lexeme expectation = .ok (lexeme, next)) :
    next.rest.length < cursor.rest.length := by
  cases expectation with
  | operand => exact length_lt_of_operandLexeme read
  | operator => exact length_lt_of_operatorLexeme read
  | memberName =>
      unfold Cursor.lexeme memberLexeme at read
      dsimp only at read
      split at read
      · rename_i identifierRead
        cases read
        exact length_lt_of_identifier? identifierRead
      · cases read

/-! ## The whole source -/

/-- Cuts off lexemes, `read` holding those before in reverse. An expression may
end only where an operator could follow. -/
def lexemesFrom (read : List PlacedLexeme) (expectation : Expectation)
    (cursor : Cursor) : LexemeList :=
  let place := cursor.skipBlanks
  if expectation = .operator ∧ place.atEnd then ⟨read.reverse, none⟩
  else
    match _taken : place.lexeme expectation with
    | .error error => ⟨read.reverse, some error⟩
    | .ok (lexeme, next) =>
        lexemesFrom (⟨place.offset, lexeme⟩ :: read) lexeme.next next
termination_by cursor.rest.length
decreasing_by
  exact Nat.lt_of_lt_of_le (length_lt_of_lexeme (by assumption))
    (reaches_skipBlanks cursor).length_le

end Cursor

def LexemeList.ofSource (source : String) : LexemeList :=
  (Cursor.start source).lexemesFrom [] .operand

end Formula
