import Formula.Error
import Formula.Operator.Match

/-!
A place in a source text: how many bytes lie before it and which characters
follow. Everything read from a source moves a cursor over the characters read.
-/

namespace Formula

def utf8Length (text : List Char) : Nat :=
  text.foldr (fun char length => char.utf8Size + length) 0

@[simp] theorem utf8Length_nil : utf8Length [] = 0 := rfl

@[simp] theorem utf8Length_cons (char : Char) (text : List Char) :
    utf8Length (char :: text) = char.utf8Size + utf8Length text := rfl

@[simp] theorem utf8Length_append (left right : List Char) :
    utf8Length (left ++ right) = utf8Length left + utf8Length right := by
  induction left with
  | nil => simp
  | cons char rest inductionHypothesis =>
      simp [inductionHypothesis, Nat.add_assoc]

structure Cursor where
  offset : Nat
  rest : List Char
  deriving DecidableEq, Repr

namespace Cursor

def start (source : String) : Cursor := ⟨0, source.toList⟩

def advance (cursor : Cursor) (text : List Char) : Cursor :=
  ⟨cursor.offset + utf8Length text, cursor.rest.drop text.length⟩

def skip (cursor : Cursor) : Cursor :=
  cursor.advance (cursor.rest.take 1)

/-- The longest text of accepted characters that follows, and the place after
it. -/
def span (cursor : Cursor) (accepts : Char → Bool) : List Char × Cursor :=
  let text := cursor.rest.takeWhile accepts
  (text, cursor.advance text)

/-- The first place at or after the cursor whose offset is at least
`target`. -/
def seek (cursor : Cursor) (target : Nat) : Cursor :=
  match cursor with
  | ⟨offset, []⟩ => ⟨offset, []⟩
  | ⟨offset, char :: rest⟩ =>
      if target ≤ offset then ⟨offset, char :: rest⟩
      else seek ⟨offset + char.utf8Size, rest⟩ target
termination_by cursor.rest.length

def peek? (cursor : Cursor) : Option Char := cursor.rest.head?

def atEnd (cursor : Cursor) : Bool := cursor.rest.isEmpty

/-- The place after `char`, if that is what follows. -/
def eat? (cursor : Cursor) (char : Char) : Option Cursor :=
  if cursor.peek? = some char then some cursor.skip else none

def error (cursor : Cursor) (fault : SyntaxFault) : Error :=
  .written cursor.offset fault

def unexpected (cursor : Cursor) (expected : String) : Error :=
  cursor.error (.unexpected expected cursor.peek?)

/-! ## Blanks and identifiers -/

/-- Whether a character may stand between lexemes. -/
def isBlank (char : Char) : Bool :=
  char = ' ' || char = '\t' || char = '\n' || char = '\r'

def isDigit (char : Char) : Bool :=
  '0' ≤ char && char ≤ '9'

def isIdentifierStart (char : Char) : Bool :=
  ('a' ≤ char && char ≤ 'z') || ('A' ≤ char && char ≤ 'Z') ||
    char = '_' || char = '$'

def isIdentifierPart (char : Char) : Bool :=
  isIdentifierStart char || isDigit char

def skipBlanks (cursor : Cursor) : Cursor :=
  (cursor.span isBlank).2

def startsIdentifier (cursor : Cursor) : Bool :=
  cursor.peek?.any isIdentifierStart

def identifier? (cursor : Cursor) : Option (String × Cursor) :=
  if cursor.startsIdentifier then
    let (text, next) := cursor.span isIdentifierPart
    some (String.ofList text, next)
  else none

/-- Whether a number follows: a digit, or a point before a digit. -/
def startsNumber (cursor : Cursor) : Bool :=
  match cursor.rest with
  | first :: second :: _ => isDigit first || (first = '.' && isDigit second)
  | [first] => isDigit first
  | [] => false

/-! ## Operators -/

/-- Reads on while some operator continues with the next character. -/
def longestMatch {α : Type} (state : OperatorMatch α) :
    List Char → OperatorMatch α
  | [] => state
  | char :: rest =>
      if state.hasNext char then longestMatch (state.consume char) rest
      else state

theorem consumed_le_longestMatch {α : Type} (state : OperatorMatch α)
    (text : List Char) :
    state.consumed ≤ (longestMatch state text).consumed := by
  induction text generalizing state with
  | nil => exact Nat.le_refl _
  | cons char rest inductionHypothesis =>
      rw [longestMatch]
      split
      · exact Nat.le_of_succ_le (inductionHypothesis (state.consume char))
      · exact Nat.le_refl _

/-- The longest text that begins some operator of a table is read; it must be
an operator itself. Nothing is read if no operator begins with the next
character. -/
def operator? {α : Type} (cursor : Cursor) (table : OperatorTable α) :
    Except Error (Option (α × Cursor)) :=
  match cursor.rest with
  | [] => .ok none
  | first :: rest =>
      if table.startsWith first then
        match table.start? first with
        | none => .error (.noOperator first)
        | some started =>
            let state := longestMatch started rest
            let text := cursor.rest.take state.consumed
            match state.complete? with
            | some operator => .ok (some (operator, cursor.advance text))
            | none =>
                .error (cursor.error (.incompleteOperator (String.ofList text)))
      else .ok none

/-! ## Progress -/

/-- A cursor lies after another if it is reached by reading a text. -/
def Reaches (before after : Cursor) : Prop :=
  ∃ text, before.rest = text ++ after.rest ∧
    after.offset = before.offset + utf8Length text

theorem Reaches.refl (cursor : Cursor) : cursor.Reaches cursor :=
  ⟨[], rfl, rfl⟩

theorem Reaches.trans {first second third : Cursor}
    (toSecond : first.Reaches second) (toThird : second.Reaches third) :
    first.Reaches third := by
  obtain ⟨text, restEq, offsetEq⟩ := toSecond
  obtain ⟨text', restEq', offsetEq'⟩ := toThird
  exact ⟨text ++ text', by rw [restEq, restEq', List.append_assoc],
    by rw [offsetEq', offsetEq, utf8Length_append, Nat.add_assoc]⟩

theorem Reaches.length_le {before after : Cursor}
    (reached : before.Reaches after) :
    after.rest.length ≤ before.rest.length := by
  obtain ⟨text, restEq, _⟩ := reached
  simp [restEq]

theorem reaches_advance {cursor : Cursor} {text : List Char}
    (follows : text <+: cursor.rest) :
    cursor.Reaches (cursor.advance text) := by
  obtain ⟨rest, restEq⟩ := follows
  exact ⟨text, by simp [advance, ← restEq], rfl⟩

theorem reaches_span (cursor : Cursor) (accepts : Char → Bool) :
    cursor.Reaches (cursor.span accepts).2 :=
  reaches_advance (List.takeWhile_prefix accepts)

theorem reaches_skip (cursor : Cursor) : cursor.Reaches cursor.skip :=
  reaches_advance (List.take_prefix 1 cursor.rest)

theorem reaches_skipBlanks (cursor : Cursor) :
    cursor.Reaches cursor.skipBlanks :=
  reaches_span cursor isBlank

theorem length_skip_lt {cursor : Cursor} (follows : cursor.rest ≠ []) :
    cursor.skip.rest.length < cursor.rest.length := by
  have := List.length_pos_iff.2 follows
  simp [skip, advance]
  omega

theorem length_span_lt {cursor : Cursor} {accepts : Char → Bool}
    (taken : (cursor.span accepts).1 ≠ []) :
    (cursor.span accepts).2.rest.length < cursor.rest.length := by
  have := List.length_pos_iff.2 taken
  have := (List.takeWhile_prefix accepts (l := cursor.rest)).length_le
  simp only [span, advance, List.length_drop] at *
  omega

end Cursor

end Formula
