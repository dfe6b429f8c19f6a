import Formula.Source.Cursor

/-!
Numeric literals. Decimal literals have digits, a fraction, an exponent and a
suffix that chooses the kind; hexadecimal literals name the bits of an integer.
-/

namespace Formula

def decimalValue (digits : List Char) : Nat :=
  digits.foldl (fun value digit => value * 10 + (digit.toNat - '0'.toNat)) 0

/-- The exponent written by decimal digits. Once it has reached `2 ^ 16`, far
beyond the range of every number, no further digit counts. -/
def exponentValue (digits : List Char) : Nat :=
  digits.foldl
    (fun value digit =>
      if value < 65536 then value * 10 + (digit.toNat - '0'.toNat) else value)
    0

def hexadecimalValue (digits : List Char) : Nat :=
  digits.foldl
    (fun value digit => value * 16 + (hexadecimalValue? digit).getD 0) 0

/-- The digits of a decimal literal and its power of ten. -/
structure Numeral where
  whole : List Char
  fraction : List Char
  exponent : Option Int

namespace Numeral

def digits (numeral : Numeral) : List Char :=
  numeral.whole ++ numeral.fraction

/-- Whether the literal can only be a floating-point number. -/
def isFractional (numeral : Numeral) : Bool :=
  !numeral.fraction.isEmpty || numeral.exponent.isSome

def value (numeral : Numeral) : Decimal :=
  ⟨decimalValue numeral.digits,
    numeral.exponent.getD 0 - numeral.fraction.length⟩

/-- The integer with a sign, if a width holds it: its bits then read back as
the same integer. -/
def toInteger? (width : Nat) (negative : Bool) (numeral : Numeral) :
    Option (BitVec width) :=
  let magnitude : Int := decimalValue numeral.whole
  let value := if negative then -magnitude else magnitude
  let bits := BitVec.ofInt width value
  if numeral.whole ≠ [] ∧ bits.toInt = value then some bits else none

/-- The nearest floating-point number with a sign, if it is finite. -/
def toBinary? (format : FloatFormat) (negative : Bool) (numeral : Numeral) :
    Option (Binary format) :=
  let nearest := Binary.ofDecimal negative numeral.value
  if numeral.digits ≠ [] ∧ nearest.isFinite then some nearest else none

end Numeral

namespace Cursor

/-! ## Decimal literals -/

def digits (cursor : Cursor) : List Char × Cursor :=
  cursor.span isDigit

def fraction (cursor : Cursor) : List Char × Cursor :=
  match cursor.rest with
  | point :: first :: _ =>
      if point = '.' && isDigit first then cursor.skip.digits else ([], cursor)
  | _ => ([], cursor)

def sign (cursor : Cursor) : Bool × Cursor :=
  if cursor.peek? = some '-' then (true, cursor.skip)
  else if cursor.peek? = some '+' then (false, cursor.skip)
  else (false, cursor)

def exponent (cursor : Cursor) : Except Error (Option Int × Cursor) :=
  if cursor.peek? = some 'e' ∨ cursor.peek? = some 'E' then
    let (negative, afterSign) := cursor.skip.sign
    let (digits, next) := afterSign.digits
    if digits.isEmpty then .error (afterSign.error .exponentWithoutDigits)
    else
      let magnitude : Int := exponentValue digits
      .ok (some (if negative then -magnitude else magnitude), next)
  else .ok (none, cursor)

def numeral (cursor : Cursor) : Except Error (Numeral × Cursor) :=
  let (whole, afterWhole) := cursor.digits
  let (fraction, afterFraction) := afterWhole.fraction
  match afterFraction.exponent with
  | .error error => .error error
  | .ok (exponent, next) => .ok (⟨whole, fraction, exponent⟩, next)

/-- The kind that a suffix or its absence gives a literal, and the place after
the suffix. -/
def suffix (cursor : Cursor) (fractional : Bool) : NumericKind × Cursor :=
  match cursor.peek? with
  | some char =>
      if (char = 'L' || char = 'l') && !fractional then (.long, cursor.skip)
      else if char = 'F' || char = 'f' then (.float, cursor.skip)
      else if char = 'D' || char = 'd' then (.double, cursor.skip)
      else (if fractional then .double else .int, cursor)
  | none => (if fractional then .double else .int, cursor)

/-- The number of a kind that a literal denotes, if it is in range. -/
def numeralValue? (kind : NumericKind) (negative : Bool) (numeral : Numeral) :
    Option Number :=
  match kind with
  | .int => (numeral.toInteger? 32 negative).map .int
  | .long => (numeral.toInteger? 64 negative).map .long
  | .float => (numeral.toBinary? .single negative).map .float
  | .double => (numeral.toBinary? .double negative).map .double

/-- A literal must not run on into further digits or letters. -/
def endNumber (value : Number) (next : Cursor) :
    Except Error (Number × Cursor) :=
  if next.peek?.any isIdentifierPart then .error (next.error .literalRunsOn)
  else .ok (value, next)

def decimalNumber (cursor : Cursor) (negative : Bool) :
    Except Error (Number × Cursor) :=
  match cursor.numeral with
  | .error error => .error error
  | .ok (numeral, afterNumeral) =>
      let (kind, next) := afterNumeral.suffix numeral.isFractional
      match numeralValue? kind negative numeral with
      | some value => endNumber value next
      | none => .error (cursor.error .literalOutOfRange)

/-! ## Hexadecimal literals -/

/-- The integer of a width whose bits are given, if they are not too many. -/
def bitsOf? (width : Nat) (negative : Bool) (bits : Nat) :
    Option (BitVec width) :=
  if bits < 1 <<< width then
    let value := BitVec.ofNat width bits
    some (if negative then -value else value)
  else none

/-- Whether the suffix of long integers follows, and the place after it. -/
def longSuffix (cursor : Cursor) : Bool × Cursor :=
  if cursor.peek? = some 'L' ∨ cursor.peek? = some 'l' then (true, cursor.skip)
  else (false, cursor)

/-- The hexadecimal literal that follows, the cursor standing before its two
leading characters. -/
def hexadecimalNumber (cursor : Cursor) (negative : Bool) :
    Except Error (Number × Cursor) :=
  let (digits, afterDigits) :=
    cursor.skip.skip.span fun char => (hexadecimalValue? char).isSome
  if digits.isEmpty then .error (cursor.error .hexadecimalWithoutDigits)
  else
    let bits := hexadecimalValue digits
    let (isLong, next) := afterDigits.longSuffix
    let value? :=
      if isLong then (bitsOf? 64 negative bits).map Number.long
      else (bitsOf? 32 negative bits).map Number.int
    match value? with
    | some value => endNumber value next
    | none => .error (cursor.error .literalOutOfRange)

/-! ## Both -/

def startsHexadecimal (cursor : Cursor) : Bool :=
  match cursor.rest with
  | zero :: mark :: _ => zero = '0' && (mark = 'x' || mark = 'X')
  | _ => false

/-- The numeric literal that follows. A minus sign directly before it belongs
to the literal, so that the least integers can be written. -/
def number (cursor : Cursor) (negative : Bool) :
    Except Error (Number × Cursor) :=
  if cursor.startsHexadecimal then cursor.hexadecimalNumber negative
  else cursor.decimalNumber negative

/-! ## Progress -/

theorem reaches_digits (cursor : Cursor) :
    cursor.Reaches cursor.digits.2 :=
  reaches_span cursor isDigit

theorem reaches_fraction (cursor : Cursor) :
    cursor.Reaches cursor.fraction.2 := by
  unfold fraction
  split
  · split
    · exact (reaches_skip cursor).trans (reaches_digits _)
    · exact .refl cursor
  · exact .refl cursor

theorem length_fraction_lt {cursor : Cursor}
    (taken : cursor.fraction.1 ≠ []) :
    cursor.fraction.2.rest.length < cursor.rest.length := by
  unfold fraction at *
  split at taken
  · split at taken
    · rename_i restEq accepted
      simp only [accepted, if_true]
      refine Nat.lt_of_le_of_lt (reaches_digits _).length_le ?_
      exact length_skip_lt (by simp [restEq])
    · exact absurd rfl taken
  · exact absurd rfl taken

theorem reaches_sign (cursor : Cursor) : cursor.Reaches cursor.sign.2 := by
  unfold sign
  split
  · exact reaches_skip cursor
  · split
    · exact reaches_skip cursor
    · exact .refl cursor

theorem reaches_exponent {cursor next : Cursor} {exponent : Option Int}
    (read : cursor.exponent = .ok (exponent, next)) :
    cursor.Reaches next := by
  unfold Cursor.exponent at read
  split at read
  · dsimp only at read
    split at read
    · cases read
    · cases read
      exact ((reaches_skip cursor).trans (reaches_sign _)).trans
        (reaches_digits _)
  · cases read
    exact .refl cursor

theorem reaches_numeral {cursor next : Cursor} {numeral : Numeral}
    (read : cursor.numeral = .ok (numeral, next)) : cursor.Reaches next := by
  unfold Cursor.numeral at read
  dsimp only at read
  split at read
  · cases read
  · rename_i exponentRead
    cases read
    exact ((reaches_digits cursor).trans (reaches_fraction _)).trans
      (reaches_exponent exponentRead)

theorem length_numeral_lt {cursor next : Cursor} {numeral : Numeral}
    (read : cursor.numeral = .ok (numeral, next))
    (written : numeral.digits ≠ []) :
    next.rest.length < cursor.rest.length := by
  unfold Cursor.numeral at read
  dsimp only at read
  split at read
  · cases read
  · rename_i exponentRead
    cases read
    have afterExponent := (reaches_exponent exponentRead).length_le
    have afterFraction := (reaches_fraction cursor.digits.2).length_le
    have afterWhole := (reaches_digits cursor).length_le
    by_cases whole : cursor.digits.1 = []
    · have fraction : cursor.digits.2.fraction.1 ≠ [] := by
        simpa [Numeral.digits, whole] using written
      have := length_fraction_lt fraction
      omega
    · have := length_span_lt whole
      have : cursor.digits.2.rest.length < cursor.rest.length := this
      omega

theorem reaches_suffix (cursor : Cursor) (fractional : Bool) :
    cursor.Reaches (cursor.suffix fractional).2 := by
  unfold suffix
  split
  · split
    · exact reaches_skip cursor
    · split
      · exact reaches_skip cursor
      · split
        · exact reaches_skip cursor
        · exact .refl cursor
  · exact .refl cursor

theorem endNumber_eq_ok {value result : Number} {next final : Cursor}
    (ended : endNumber value next = .ok (result, final)) :
    result = value ∧ final = next := by
  unfold endNumber at ended
  split at ended
  · cases ended
  · cases ended
    exact ⟨rfl, rfl⟩

theorem digits_ne_nil_of_numeralValue? {kind : NumericKind}
    {negative : Bool} {numeral : Numeral} {value : Number}
    (denoted : numeralValue? kind negative numeral = some value) :
    numeral.digits ≠ [] := by
  intro empty
  have whole : numeral.whole = [] :=
    (List.append_eq_nil_iff.1 empty).1
  cases kind <;>
    simp [numeralValue?, Numeral.toInteger?, Numeral.toBinary?, empty,
      whole] at denoted

theorem reaches_longSuffix (cursor : Cursor) :
    cursor.Reaches cursor.longSuffix.2 := by
  unfold longSuffix
  split
  · exact reaches_skip cursor
  · exact .refl cursor

theorem reaches_number {cursor next : Cursor} {negative : Bool}
    {value : Number} (read : cursor.number negative = .ok (value, next)) :
    cursor.Reaches next ∧ next.rest.length < cursor.rest.length := by
  unfold number at read
  split at read
  · rename_i hexadecimal
    have follows : cursor.rest ≠ [] := by
      intro empty
      simp [startsHexadecimal, empty] at hexadecimal
    have shorter := length_skip_lt follows
    have afterSkip := ((reaches_skip cursor.skip).trans
      (reaches_span cursor.skip.skip
        fun char => (hexadecimalValue? char).isSome)).trans
      (reaches_longSuffix _)
    unfold hexadecimalNumber at read
    dsimp only at read
    split at read
    · cases read
    · split at read
      · obtain ⟨_, rfl⟩ := endNumber_eq_ok read
        exact ⟨(reaches_skip cursor).trans afterSkip,
          Nat.lt_of_le_of_lt afterSkip.length_le shorter⟩
      · cases read
  · unfold decimalNumber at read
    split at read
    · cases read
    · rename_i numeral afterNumeral numeralRead
      dsimp only at read
      split at read
      · rename_i denoted
        obtain ⟨_, rfl⟩ := endNumber_eq_ok read
        have suffixReached :=
          reaches_suffix afterNumeral numeral.isFractional
        have := length_numeral_lt numeralRead
          (digits_ne_nil_of_numeralValue? denoted)
        exact ⟨(reaches_numeral numeralRead).trans suffixReached,
          Nat.lt_of_le_of_lt suffixReached.length_le this⟩
      · cases read

end Cursor

end Formula
