/-!
String literals: writing a string between quotes and reading the characters
that stand between the quotes of a literal.
-/

namespace Formula

/-! ## Writing -/

def hexadecimalDigit (value : Nat) : Char :=
  Nat.digitChar value

def fourHexadecimalDigits (value : Nat) : List Char :=
  [hexadecimalDigit (value / 4096 % 16), hexadecimalDigit (value / 256 % 16),
    hexadecimalDigit (value / 16 % 16), hexadecimalDigit (value % 16)]

/-- Whether a character is one of the control characters of the two blocks that
hold them. -/
def isControl (char : Char) : Bool :=
  char.val < 0x20 || (0x7f ≤ char.val && char.val < 0xa0)

def escapeCharacter (char : Char) : List Char :=
  if char = '"' then ['\\', '"']
  else if char = '\\' then ['\\', '\\']
  else if char = '\n' then ['\\', 'n']
  else if char = '\r' then ['\\', 'r']
  else if char = '\t' then ['\\', 't']
  else if char = '\x00' then ['\\', '0']
  else if isControl char then '\\' :: 'u' :: fourHexadecimalDigits char.toNat
  else [char]

def quote (text : String) : String :=
  String.ofList ('"' :: (text.toList.flatMap escapeCharacter ++ ['"']))

/-! ## Reading -/

inductive EscapeFault
  | unknown (char : Char)
  | notHexadecimal (char : Char)
  | incomplete (digits : Nat)
  | notScalar (value : Nat)
  | dangling
  deriving DecidableEq, Repr

/-- A faulty escape sequence and the byte at which the fault shows. -/
structure EscapeError where
  position : Nat
  fault : EscapeFault
  deriving DecidableEq, Repr

private def codePointText (value : Nat) : String :=
  let digits := (Nat.toDigits 16 value).map Char.toUpper
  String.ofList (List.replicate (4 - digits.length) '0' ++ digits)

def EscapeFault.message : EscapeFault → String
  | .unknown char => s!"invalid escape sequence '\\{char}'"
  | .notHexadecimal char =>
      s!"invalid hex digit '{char}' in unicode escape"
  | .incomplete digits =>
      s!"incomplete unicode escape: expected 4 hex digits, got {digits}"
  | .notScalar value =>
      "invalid unicode scalar value U+" ++ codePointText value
  | .dangling => "dangling backslash at end of string"

def hexadecimalValue? (char : Char) : Option Nat :=
  if '0' ≤ char ∧ char ≤ '9' then some (char.toNat - '0'.toNat)
  else if 'a' ≤ char ∧ char ≤ 'f' then some (char.toNat - 'a'.toNat + 10)
  else if 'A' ≤ char ∧ char ≤ 'F' then some (char.toNat - 'A'.toNat + 10)
  else none

/-- The character that a backslash and one further character stand for. -/
def namedEscape? (char : Char) : Option Char :=
  if char = 'n' then some '\n'
  else if char = 'r' then some '\r'
  else if char = 't' then some '\t'
  else if char = 'b' then some '\x08'
  else if char = 'f' then some '\x0c'
  else if char = '0' then some '\x00'
  else if char = '\\' ∨ char = '"' ∨ char = '\'' then some char
  else none

/-- The number written by hexadecimal digits, or the first character that is
none, with the byte where it stands. -/
def readHexadecimal (position value : Nat) :
    List Char → Except EscapeError Nat
  | [] => .ok value
  | char :: rest =>
      match hexadecimalValue? char with
      | some digit => readHexadecimal (position + 1) (value * 16 + digit) rest
      | none => .error ⟨position, .notHexadecimal char⟩

/-- The character of a code point written after the backslash at `position`. -/
def readCodePoint (position : Nat) (digits : List Char) :
    Except EscapeError Char :=
  match readHexadecimal (position + 2) 0 digits with
  | .error error => .error error
  | .ok value =>
      if digits.length < 4 then .error ⟨position, .incomplete digits.length⟩
      else if valid : value.isValidChar then .ok (Char.ofNatAux value valid)
      else .error ⟨position, .notScalar value⟩

/-- Reads the rest of a literal's content, `written` holding the characters
read so far in reverse. -/
def unescapeFrom (position : Nat) (written : List Char) :
    List Char → Except EscapeError (List Char)
  | [] => .ok written.reverse
  | '\\' :: 'u' :: first :: second :: third :: fourth :: rest =>
      match readCodePoint position [first, second, third, fourth] with
      | .ok char => unescapeFrom (position + 6) (char :: written) rest
      | .error error => .error error
  | '\\' :: 'u' :: digits =>
      (readCodePoint position digits).map fun _ => written.reverse
  | '\\' :: char :: rest =>
      match namedEscape? char with
      | some named => unescapeFrom (position + 2) (named :: written) rest
      | none => .error ⟨position, .unknown char⟩
  | ['\\'] => .error ⟨position, .dangling⟩
  | char :: rest =>
      unescapeFrom (position + char.utf8Size) (char :: written) rest

/-- The string that the content of a literal stands for: the content itself if
it has no escape sequence. -/
def unescape (content : List Char) : Except EscapeError String :=
  if '\\' ∈ content then (unescapeFrom 0 [] content).map String.ofList
  else .ok (String.ofList content)

end Formula
