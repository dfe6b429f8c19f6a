import Formula.Source.Numeral
import Formula.Source.Quoted

/-!
Reading a source by offsets. A cursor holds the characters that follow it; a
lexer knows the offset of a byte alone. It tests single bytes, and cuts texts
out of the source between offsets, which is only defined between characters. It
stands somewhere also after a reading that failed, and reading may go on from
there.
-/

namespace Formula

/-! ## Cutting by bytes -/

/-- The text behind its first `count` bytes, unless they end inside a character
or beyond the text. -/
def dropBytes? : Nat → List Char → Option (List Char)
  | 0, text => some text
  | _ + 1, [] => none
  | count + 1, char :: rest =>
      if char.utf8Size ≤ count + 1 then
        dropBytes? (count + 1 - char.utf8Size) rest
      else none

/-- The first `count` bytes of a text, unless they end inside a character or
beyond the text. -/
def takeBytes? : Nat → List Char → Option (List Char)
  | 0, _ => some []
  | _ + 1, [] => none
  | count + 1, char :: rest =>
      if char.utf8Size ≤ count + 1 then
        (takeBytes? (count + 1 - char.utf8Size) rest).map (char :: ·)
      else none

theorem dropBytes?_eq_some_iff {count : Nat} {text rest : List Char} :
    dropBytes? count text = some rest ↔
      ∃ before, text = before ++ rest ∧ utf8Length before = count := by
  fun_induction dropBytes? count text with
  | case1 text =>
      constructor
      · intro same
        exact ⟨[], Option.some.inj same, rfl⟩
      · rintro ⟨before, rfl, width⟩
        cases before with
        | nil => rfl
        | cons char before =>
            have filled := char.utf8Size_pos
            rw [utf8Length_cons] at width
            omega
  | case2 =>
      constructor
      · intro absent
        cases absent
      · rintro ⟨before, split, width⟩
        obtain ⟨rfl, _⟩ := List.append_eq_nil_iff.1 split.symm
        cases width
  | case3 count char text fits inductionHypothesis =>
      constructor
      · intro found
        obtain ⟨before, rfl, width⟩ := inductionHypothesis.1 found
        refine ⟨char :: before, rfl, ?_⟩
        rw [utf8Length_cons, width, Nat.add_sub_of_le fits]
      · rintro ⟨before, split, width⟩
        cases before with
        | nil => cases width
        | cons other before =>
            cases split
            exact inductionHypothesis.2
              ⟨before, rfl, (Nat.sub_eq_of_eq_add' width.symm).symm⟩
  | case4 count char text beyond =>
      constructor
      · intro absent
        cases absent
      · rintro ⟨before, split, width⟩
        cases before with
        | nil => cases width
        | cons other before =>
            cases split
            rw [utf8Length_cons] at width
            omega

theorem takeBytes?_utf8Length (text rest : List Char) :
    takeBytes? (utf8Length text) (text ++ rest) = some text := by
  induction text with
  | nil => rw [utf8Length_nil, takeBytes?]
  | cons char text inductionHypothesis =>
      have filled := char.utf8Size_pos
      obtain ⟨count, isNext⟩ : ∃ count,
          char.utf8Size + utf8Length text = count + 1 :=
        ⟨char.utf8Size + utf8Length text - 1, by omega⟩
      have fits : char.utf8Size ≤ count + 1 := by omega
      have left : count + 1 - char.utf8Size = utf8Length text := by omega
      rw [utf8Length_cons, isNext, List.cons_append, takeBytes?, if_pos fits,
        left, inductionHypothesis]
      rfl

/-! ## Readings -/

/-- What may be done with a source from an offset on. It is undefined where a
text would be cut inside a character or beyond the source; otherwise it leaves a
value or an error, and an offset. -/
def Lexing (α : Type) : Type :=
  String → Nat → Option (Except Error α × Nat)

namespace Lexing

variable {α β : Type}

def andThen (first : Lexing α) (next : α → Lexing β) : Lexing β :=
  fun source offset =>
    match first source offset with
    | none => none
    | some (.error error, stop) => some (.error error, stop)
    | some (.ok value, middle) => next value source middle

instance : Monad Lexing where
  pure value := fun _ offset => some (.ok value, offset)
  bind := andThen

def offset : Lexing Nat := fun _ offset => some (.ok offset, offset)

def reset (target : Nat) : Lexing Unit := fun source _ =>
  if target ≤ source.utf8ByteSize then some (.ok (), target) else none

def advance (count : Nat) : Lexing Unit := fun _ offset =>
  some (.ok (), offset + count)

def fail (error : Error) : Lexing α := fun _ offset =>
  some (.error error, offset)

/-- The value that there should be, or a fault at an offset. -/
def orFault (value? : Option α) (place : Nat) (fault : SyntaxFault) :
    Lexing α :=
  match value? with
  | some value => pure value
  | none => fail (.written place fault)

def cut (start stop : Nat) : Lexing (List Char) := fun source offset =>
  if start ≤ stop then
    match (dropBytes? start source.toList).bind (takeBytes? (stop - start)) with
    | some text => some (.ok text, offset)
    | none => none
  else none

/-! ## Single bytes -/

/-- Whether the byte a number of bytes ahead is an accepted character in
itself. -/
def follows (ahead : Nat) (accepts : Char → Bool) : Lexing Bool :=
  fun source offset =>
    let byte? := source.toByteArray.data[offset + ahead]?
    some (.ok (byte?.any fun byte => accepts (.ofUInt8 byte)), offset)

/-- Passes over bytes as long as they are accepted characters in
themselves. -/
def skipWhile (accepts : Char → Bool) : Lexing Unit := fun source offset =>
  let bytes := source.toByteArray.data.toList.drop offset
  let accepted := bytes.takeWhile fun byte => accepts (.ofUInt8 byte)
  some (.ok (), offset + accepted.length)

/-! ## Single characters -/

def peek : Lexing (Option Char) := fun source offset =>
  (dropBytes? offset source.toList).map fun rest => (.ok rest.head?, offset)

/-- Whether `char` follows; it is passed over. -/
def eat (char : Char) : Lexing Bool := do
  if (← peek) = some char then
    advance char.utf8Size
    return true
  else return false

def unexpected (expected : String) : Lexing Error := do
  let found ← peek
  let here ← offset
  return .written here (.unexpected expected found)

def skipBlanks : Lexing Unit := skipWhile Cursor.isBlank

/-! ## Operators -/

theorem le_of_dropBytes? {offset : Nat} {text rest : List Char} {char : Char}
    (follows : dropBytes? offset text = some (char :: rest)) :
    offset + char.utf8Size ≤ utf8Length text := by
  obtain ⟨before, rfl, rfl⟩ := dropBytes?_eq_some_iff.1 follows
  rw [utf8Length_append, utf8Length_cons]
  omega

/-- Reads on from an offset while some operator continues with the next
character. -/
def munchFrom (source : String) (state : OperatorMatch α) (offset : Nat) :
    Option (OperatorMatch α × Nat) :=
  match _peeked : dropBytes? offset source.toList with
  | none => none
  | some [] => some (state, offset)
  | some (char :: _) =>
      if state.hasNext char then
        munchFrom source (state.consume char) (offset + char.utf8Size)
      else some (state, offset)
termination_by utf8Length source.toList - offset
decreasing_by
  have := char.utf8Size_pos
  have := le_of_dropBytes? (by assumption)
  omega

/-- Reads on while some operator continues with the next character. -/
def munch (state : OperatorMatch α) : Lexing (OperatorMatch α) :=
  fun source offset =>
    (munchFrom source state offset).map fun (state, stop) => (.ok state, stop)

/-- The longest operator that follows. Nothing is read if no operator begins
with the next character. -/
def operator (table : OperatorTable α) : Lexing (Option α) := do
  let start ← offset
  match ← peek with
  | none => return none
  | some first =>
      if table.startsWith first then
        match table.start? first with
        | none => fail (.noOperator first)
        | some started =>
            advance first.utf8Size
            let state ← munch started
            match state.complete? with
            | some operator => return some operator
            | none =>
                let text ← cut start (← offset)
                fail (.written start (.incompleteOperator (String.ofList text)))
      else return none

/-! ## Identifiers -/

def startsIdentifier : Lexing Bool := follows 0 Cursor.isIdentifierStart

def identifier : Lexing (Option String) := do
  if ← startsIdentifier then
    let start ← offset
    skipWhile Cursor.isIdentifierPart
    let text ← cut start (← offset)
    return some (String.ofList text)
  else return none

/-! ## Numbers -/

/-- Passes over a point with digits behind it and tells whether they
follow. -/
def skipFraction : Lexing Bool := do
  if (← follows 0 (· = '.')) && (← follows 1 Cursor.isDigit) then
    advance 1
    skipWhile Cursor.isDigit
    return true
  else return false

def skipSign : Lexing Unit := do
  if ← follows 0 (fun char => char = '+' || char = '-') then advance 1

def skipExponent : Lexing Bool := do
  if ← follows 0 (fun char => char = 'e' || char = 'E') then
    advance 1
    skipSign
    if ← follows 0 Cursor.isDigit then
      skipWhile Cursor.isDigit
      return true
    else fail (.written (← offset) .exponentWithoutDigits)
  else return false

def suffix (fractional : Bool) : Lexing NumericKind := do
  if (← follows 0 (fun char => char = 'L' || char = 'l')) && !fractional then
    advance 1
    return .long
  else if ← follows 0 (fun char => char = 'F' || char = 'f') then
    advance 1
    return .float
  else if ← follows 0 (fun char => char = 'D' || char = 'd') then
    advance 1
    return .double
  else return if fractional then .double else .int

def endNumber : Lexing Unit := do
  if ← follows 0 Cursor.isIdentifierPart then
    fail (.written (← offset) .literalRunsOn)

def numeralOf? (text : List Char) : Option Numeral :=
  match (Cursor.mk 0 text).numeral with
  | .ok (numeral, ⟨_, []⟩) => some numeral
  | _ => none

def decimalNumber (negative : Bool) : Lexing Number := do
  let start ← offset
  skipWhile Cursor.isDigit
  let hasFraction ← skipFraction
  let hasExponent ← skipExponent
  let text ← cut start (← offset)
  let kind ← suffix (hasFraction || hasExponent)
  let value ←
    orFault ((numeralOf? text).bind (Cursor.numeralValue? kind negative)) start
      .literalOutOfRange
  endNumber
  return value

/-- Whether the suffix of long integers follows; it is passed over. -/
def longSuffix : Lexing Bool := do
  if ← eat 'L' then return true else eat 'l'

def hexadecimalNumber (negative : Bool) : Lexing Number := do
  let start ← offset
  advance 2
  let digitsStart ← offset
  skipWhile fun char => (hexadecimalValue? char).isSome
  let digits ← cut digitsStart (← offset)
  if digits.isEmpty then fail (.written start .hexadecimalWithoutDigits)
  else
    let isLong ← longSuffix
    let bits := hexadecimalValue digits
    let value? :=
      if isLong then (Cursor.bitsOf? 64 negative bits).map Number.long
      else (Cursor.bitsOf? 32 negative bits).map Number.int
    let value ← orFault value? start .literalOutOfRange
    endNumber
    return value

/-- The numeric literal that follows, whether or not it begins as one. -/
def number (negative : Bool) : Lexing Number := do
  if (← follows 0 (· = '0')) &&
      (← follows 1 (fun char => char = 'x' || char = 'X')) then
    hexadecimalNumber negative
  else decimalNumber negative

/-! ## Strings -/

/-- Reads on from an offset behind the quote that closes a literal, and tells
whether there is one; the end of the line or of the source leaves the literal
open. -/
def closeFrom (source : String) (offset : Nat) : Option (Bool × Nat) :=
  match _peeked : dropBytes? offset source.toList with
  | none => none
  | some [] => some (false, offset)
  | some (char :: _) =>
      if char = '\n' then some (false, offset + char.utf8Size)
      else if char = '"' then some (true, offset + char.utf8Size)
      else if char = '\\' then
        match _escaped : dropBytes? (offset + char.utf8Size) source.toList with
        | none => none
        | some [] => closeFrom source (offset + char.utf8Size)
        | some (escaped :: _) =>
            closeFrom source (offset + char.utf8Size + escaped.utf8Size)
      else closeFrom source (offset + char.utf8Size)
termination_by utf8Length source.toList - offset
decreasing_by
  all_goals
    have := char.utf8Size_pos
    have := le_of_dropBytes? (by assumption)
    omega

/-- Reads on behind the quote that closes a literal, and tells whether there is
one. -/
def close : Lexing Bool := fun source offset =>
  (closeFrom source offset).map fun (isClosed, stop) => (.ok isClosed, stop)

def string : Lexing String := do
  let start ← offset
  if ← eat '"' then
    let contentStart ← offset
    if ← close then
      let stop ← offset
      let content ← cut contentStart (stop - 1)
      match unescape content with
      | .ok text => return text
      | .error ⟨position, fault⟩ =>
          fail (.written (contentStart + position) (.escape fault))
    else fail (.written start .unterminatedString)
  else fail (← unexpected "a string literal")

end Lexing

end Formula
