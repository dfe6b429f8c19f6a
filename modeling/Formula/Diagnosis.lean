import Formula.Source.Cursor

/-!
What an error says about the source that it arose in.
-/

namespace Formula

structure Label where
  text : String
  offset : Nat
  length : Nat
  deriving DecidableEq, Repr

structure Diagnosis where
  message : String
  labels : List Label
  help? : Option String
  deriving DecidableEq, Repr

/-- The byte where a name first stands as a whole identifier. The search goes
on after an occurrence that is part of a longer identifier; `skipped` characters
are still to be passed over, and `before` is the last character passed. -/
def findIdentifier? (name : List Char) (skipped : Nat)
    (before : Option Char) (offset : Nat) : List Char → Option Nat
  | [] =>
      if name.isEmpty && !before.any Cursor.isIdentifierPart then some offset
      else none
  | char :: rest =>
      let next := offset + char.utf8Size
      if 0 < skipped then
        findIdentifier? name (skipped - 1) (some char) next rest
      else if name.isPrefixOf (char :: rest) then
        let after := ((char :: rest).drop name.length).head?
        if !before.any Cursor.isIdentifierPart &&
            !after.any Cursor.isIdentifierPart then
          some offset
        else findIdentifier? name (name.length - 1) (some char) next rest
      else findIdentifier? name 0 (some char) next rest

namespace Error

def help? : Error → Option String
  | .unknownReference _ =>
      some
        "bind the name as a variable, or declare it as a local before compiling"
  | .mismatch _ _ | .unsupported _ _ =>
      some
        "numbers promote int -> long -> float -> double; only + accepts strings"
  | .tooManyLocals | .tooManyConstants =>
      some "instruction operands address at most 65536 entries"
  | _ => none

/-- The labels of an error: the character at which reading failed, or the first
place of a name that stands for nothing. -/
def labels (error : Error) (source : String) : List Label :=
  match error with
  | .written offset fault =>
      let place := (Cursor.start source).seek offset
      [⟨fault.message, place.offset, (place.peek?.map Char.utf8Size).getD 0⟩]
  | .unknownReference name =>
      match findIdentifier? name.toList 0 none 0 source.toList with
      | some offset => [⟨"not defined", offset, name.utf8ByteSize⟩]
      | none => []
  | _ => []

def heading : Error → String
  | .written _ _ => "syntax error"
  | error => error.message

def diagnose (error : Error) (source : String) : Diagnosis :=
  ⟨error.heading, error.labels source, error.help?⟩

end Error

end Formula
