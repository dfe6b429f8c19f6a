import Formula.Proofs.Source.Faults
import Formula.Proofs.Source.Magnitude
import Formula.Proofs.Source.Numeral
import Mathlib.Data.List.TakeWhile

/-!
# Numeric literals

An integer literal denotes what its digits write: a decimal one an integer, if
its kind has this integer, and a hexadecimal one the bits of an integer, if its
kind has so many. A minus sign that belongs to a literal means the negation of
the number without it, except for the least integers, which have no literal
without the sign.
-/

namespace Formula

/-! ## Forms of integer literals -/

/-- The suffix of an integer literal, with the kind that it gives and with what
follows. -/
inductive IntegerSuffix : NumericKind → List Char → List Char → Prop
  | none {rest : List Char}
      (noMark : ∀ char ∈ rest.head?, char ≠ 'L' ∧ char ≠ 'l') :
      IntegerSuffix .int [] rest
  | long {mark : Char} {rest : List Char} (isMark : mark = 'L' ∨ mark = 'l') :
      IntegerSuffix .long [mark] rest

/-- A text makes a floating-point literal of the digits before it: by a
fraction, a power of ten or a suffix. -/
inductive MakesFloat : List Char → Prop
  | fraction {digit : Char} {rest : List Char}
      (isDigit : Cursor.isDigit digit) : MakesFloat ('.' :: digit :: rest)
  | power {mark digit : Char} {sign rest : List Char}
      (isMark : mark = 'e' ∨ mark = 'E')
      (isSign : sign ∈ [[], ['+'], ['-']]) (isDigit : Cursor.isDigit digit) :
      MakesFloat (mark :: (sign ++ digit :: rest))
  | suffix {mark : Char} {rest : List Char}
      (isMark : mark ∈ ['F', 'f', 'D', 'd']) : MakesFloat (mark :: rest)

/-- A text begins with the two characters of hexadecimal literals. -/
def BeginsHexadecimal (text : List Char) : Prop :=
  ∃ mark rest, (mark = 'x' ∨ mark = 'X') ∧ text = '0' :: mark :: rest

/-- A text is a decimal integer literal and a rest: all the digits that there
are, which nothing makes a floating-point literal, and a suffix. -/
structure IsDecimalInteger (text : List Char) (kind : NumericKind)
    (digits suffix rest : List Char) : Prop where
  text_eq : text = digits ++ (suffix ++ rest)
  isDigit : ∀ digit ∈ digits, Cursor.isDigit digit
  notEmpty : digits ≠ []
  stops : Cursor.StopsDigits (suffix ++ rest)
  notHexadecimal : ¬ BeginsHexadecimal text
  notFloat : ¬ MakesFloat (suffix ++ rest)
  isSuffix : IntegerSuffix kind suffix rest

/-- A text is a hexadecimal literal and a rest: all the hexadecimal digits that
there are after the two leading characters, and a suffix. -/
structure IsHexadecimalInteger (text : List Char) (kind : NumericKind)
    (mark : Char) (digits suffix rest : List Char) : Prop where
  text_eq : text = '0' :: mark :: (digits ++ (suffix ++ rest))
  isMark : mark = 'x' ∨ mark = 'X'
  isDigit : ∀ digit ∈ digits, (hexadecimalValue? digit).isSome
  stops : ∀ char ∈ (suffix ++ rest).head?,
    (hexadecimalValue? char).isSome = false
  isSuffix : IntegerSuffix kind suffix rest

/-- Neither a letter nor a digit goes on with a literal. -/
def EndsLiteral (rest : List Char) : Prop :=
  ∀ char ∈ rest.head?, Cursor.isIdentifierPart char = false

theorem IntegerSuffix.isIntegral {kind : NumericKind}
    {suffix rest : List Char} (isSuffix : IntegerSuffix kind suffix rest) :
    kind.isIntegral := by
  cases isSuffix <;> rfl

theorem exists_integerSuffix (text : List Char) :
    ∃ kind suffix rest, text = suffix ++ rest ∧
      IntegerSuffix kind suffix rest := by
  by_cases long : ∃ mark rest, text = mark :: rest ∧ (mark = 'L' ∨ mark = 'l')
  · obtain ⟨mark, rest, rfl, isMark⟩ := long
    exact ⟨.long, [mark], rest, rfl, .long isMark⟩
  · refine ⟨.int, [], text, rfl, .none fun char isHead => ?_⟩
    cases text with
    | nil =>
        cases isHead
    | cons first rest =>
        cases isHead
        exact not_or.1 fun isMark => long ⟨char, rest, rfl, isMark⟩

namespace Cursor

variable {kind : NumericKind} {negative : Bool} {numeral : Numeral}
  {value result : Number} {cursor next final : Cursor} {offset : Nat}
  {text digits suffix rest : List Char} {mark : Char}

/-! ## Ends of literals -/

theorem endNumber_eq_ok_iff :
    endNumber value next = .ok (result, final) ↔
      result = value ∧ final = next ∧ EndsLiteral next.rest := by
  have goesOn_iff : next.peek?.any isIdentifierPart ↔
      ¬ EndsLiteral next.rest := by
    unfold EndsLiteral peek?
    cases next.rest <;> simp
  unfold endNumber
  by_cases goesOn : next.peek?.any isIdentifierPart
  · rw [if_pos goesOn]
    exact ⟨nofun, fun ⟨_, _, ends⟩ => absurd ends (goesOn_iff.1 goesOn)⟩
  · rw [if_neg goesOn]
    have ends := not_not.1 (mt goesOn_iff.2 goesOn)
    constructor
    · intro same
      cases same
      exact ⟨rfl, rfl, ends⟩
    · rintro ⟨rfl, rfl, _⟩
      rfl

/-- A decimal literal is a numeral and a suffix that gives it the kind in which
it denotes a number. -/
theorem decimalNumber_eq_ok_iff :
    cursor.decimalNumber negative = .ok (value, next) ↔
      ∃ numeral middle kind, cursor.numeral = .ok (numeral, middle) ∧
        middle.suffix numeral.isFractional = (kind, next) ∧
          numeralValue? kind negative numeral = some value ∧
            EndsLiteral next.rest := by
  unfold decimalNumber
  cases read : cursor.numeral with
  | error error =>
      exact ⟨nofun, fun ⟨_, _, _, wouldRead, _⟩ => nomatch wouldRead⟩
  | ok found =>
      obtain ⟨numeral, middle⟩ := found
      dsimp only
      cases denoted : numeralValue? (middle.suffix numeral.isFractional).1
          negative numeral with
      | none =>
          refine ⟨nofun, ?_⟩
          rintro ⟨_, _, _, same, isSuffix, isDenoted, _⟩
          cases same
          rw [isSuffix, isDenoted] at denoted
          cases denoted
      | some number =>
          dsimp only
          rw [endNumber_eq_ok_iff]
          constructor
          · rintro ⟨rfl, rfl, ends⟩
            exact ⟨numeral, middle, _, rfl, rfl, denoted, ends⟩
          · rintro ⟨_, _, _, same, isSuffix, isDenoted, ends⟩
            cases same
            rw [isSuffix, isDenoted] at denoted
            cases denoted
            rw [isSuffix]
            exact ⟨rfl, rfl, ends⟩

/-! ## Hexadecimal literals -/

/-- A suffix tells how many bits a hexadecimal literal has. -/
theorem bits_eq_some_iff (isSuffix : IntegerSuffix kind suffix rest)
    {bits : Nat} :
    (if kind = .long then (bitsOf? 64 negative bits).map Number.long
      else (bitsOf? 32 negative bits).map Number.int) = some value ↔
      bits < 2 ^ kind.width ∧ value.Wraps kind (signed negative bits) := by
  cases isSuffix with
  | none | long =>
      simp only [reduceCtorEq, if_true, if_false, Option.map_eq_some_iff,
        bitsOf?_eq_some_iff]
      constructor
      · rintro ⟨bits, ⟨small, isBits⟩, rfl⟩
        exact ⟨small, rfl, congrArg some isBits⟩
      · rintro ⟨small, isKind, isValue⟩
        cases value <;> cases isKind
        exact ⟨_, ⟨small, Option.some.inj isValue⟩, rfl⟩

theorem longSuffix_of_integerSuffix
    (isSuffix : IntegerSuffix kind suffix rest) :
    Cursor.longSuffix ⟨offset, suffix ++ rest⟩ =
      (decide (kind = .long), ⟨offset + utf8Length suffix, rest⟩) := by
  cases isSuffix with
  | none noMark =>
      refine if_neg fun isMark => ?_
      rcases isMark with upper | lower
      · exact (noMark _ upper).1 rfl
      · exact (noMark _ lower).2 rfl
  | long isMark =>
      refine if_pos ?_
      rcases isMark with rfl | rfl
      · exact .inl rfl
      · exact .inr rfl

theorem startsHexadecimal_iff :
    cursor.startsHexadecimal ↔ BeginsHexadecimal cursor.rest := by
  unfold startsHexadecimal BeginsHexadecimal
  split
  · rename_i zero mark rest restEq
    simp only [Bool.and_eq_true, Bool.or_eq_true, decide_eq_true_eq]
    constructor
    · rintro ⟨rfl, isMark⟩
      exact ⟨mark, rest, isMark, restEq⟩
    · rintro ⟨other, _, isMark, same⟩
      cases restEq.symm.trans same
      exact ⟨rfl, isMark⟩
  · rename_i tooShort
    exact ⟨nofun, fun ⟨mark, rest, _, restEq⟩ =>
      absurd restEq (tooShort '0' mark rest)⟩

/-- A hexadecimal literal denotes the integer of its bits, with a sign if there
is one, provided that it has digits, that its kind has so many bits, and that
nothing goes on with it. -/
theorem number_eq_ok_iff_of_isHexadecimalInteger
    (literal : IsHexadecimalInteger text kind mark digits suffix rest) :
    Cursor.number ⟨offset, text⟩ negative = .ok (value, next) ↔
      digits ≠ [] ∧ hexadecimalValue digits < 2 ^ kind.width ∧
        value.Wraps kind (signed negative (hexadecimalValue digits)) ∧
          next = ⟨offset + utf8Length ('0' :: mark :: digits ++ suffix),
            rest⟩ ∧
            EndsLiteral rest := by
  obtain ⟨rfl, isMark, isDigit, stops, isSuffix⟩ := literal
  have begins : (Cursor.mk offset
      ('0' :: mark :: (digits ++ (suffix ++ rest)))).startsHexadecimal :=
    startsHexadecimal_iff.2 ⟨mark, _, isMark, rfl⟩
  have after : (Cursor.mk offset
      ('0' :: mark :: (digits ++ (suffix ++ rest)))).skip.skip =
        ⟨offset + utf8Length ['0'] + utf8Length [mark],
          digits ++ (suffix ++ rest)⟩ := rfl
  rw [number, if_pos begins, hexadecimalNumber, after,
    span_append _ isDigit stops]
  dsimp only
  by_cases none : digits = []
  · rw [if_pos (List.isEmpty_iff.2 none)]
    constructor
    · intro read
      cases read
    · intro conditions
      exact absurd none conditions.1
  · rw [if_neg (fun isEmpty => none (List.isEmpty_iff.1 isEmpty)),
      longSuffix_of_integerSuffix isSuffix]
    have place : offset + utf8Length ['0'] + utf8Length [mark] +
        utf8Length digits + utf8Length suffix =
          offset + utf8Length ('0' :: mark :: digits ++ suffix) := by
      simp only [List.cons_append, utf8Length_cons, utf8Length_append,
        utf8Length_nil]
      omega
    simp only [decide_eq_true_eq, place]
    cases denoted : (if kind = .long then
        (bitsOf? 64 negative (hexadecimalValue digits)).map Number.long
      else (bitsOf? 32 negative (hexadecimalValue digits)).map Number.int) with
    | none =>
        constructor
        · intro read
          cases read
        · rintro ⟨_, small, wraps, _⟩
          rw [(bits_eq_some_iff isSuffix).2 ⟨small, wraps⟩] at denoted
          cases denoted
    | some number =>
        obtain ⟨small, isNumber⟩ := (bits_eq_some_iff isSuffix).1 denoted
        dsimp only
        rw [endNumber_eq_ok_iff]
        constructor
        · rintro ⟨rfl, rfl, ends⟩
          exact ⟨none, small, isNumber, rfl, ends⟩
        · rintro ⟨_, _, wraps, rfl, ends⟩
          exact ⟨wraps.unique isNumber, rfl, ends⟩

/-! ## Decimal literals -/

/-- A text does not begin with the mark of a power of ten. -/
def NoPower (text : List Char) : Prop :=
  ∀ mark ∈ text.head?, mark ≠ 'e' ∧ mark ≠ 'E'

theorem digits_ne_nil_iff :
    cursor.digits.1 ≠ [] ↔
      ∃ digit rest, isDigit digit ∧ cursor.rest = digit :: rest := by
  have taken : cursor.digits.1 = cursor.rest.takeWhile isDigit := rfl
  rw [taken]
  cases restEq : cursor.rest with
  | nil =>
      simp
  | cons first rest =>
      by_cases isDigit : isDigit first
      · simp [isDigit]
      · simp [List.takeWhile_cons_of_neg isDigit, isDigit]

/-- No fraction is read exactly if none is there. -/
theorem fraction_eq_nil_iff :
    cursor.fraction = ([], next) ↔
      next = cursor ∧
        ∀ digit rest, isDigit digit → cursor.rest ≠ '.' :: digit :: rest := by
  obtain ⟨offset, text⟩ := cursor
  by_cases follows : ∃ digit rest, isDigit digit ∧ text = '.' :: digit :: rest
  · obtain ⟨digit, rest, isDigit, rfl⟩ := follows
    have opens : Cursor.fraction ⟨offset, '.' :: digit :: rest⟩ =
        Cursor.digits ⟨offset + utf8Length ['.'], digit :: rest⟩ :=
      if_pos (by simp [isDigit])
    rw [opens]
    refine ⟨fun none => ?_, fun ⟨_, noFraction⟩ => ?_⟩
    · exact absurd (congrArg Prod.fst none)
        (digits_ne_nil_iff.2 ⟨digit, rest, isDigit, rfl⟩)
    · exact absurd rfl (noFraction digit rest isDigit)
  · have noFraction : ∀ digit rest, Cursor.isDigit digit →
        text ≠ '.' :: digit :: rest := fun digit rest isDigit restEq =>
      follows ⟨digit, rest, isDigit, restEq⟩
    have none : Cursor.fraction ⟨offset, text⟩ = ([], ⟨offset, text⟩) := by
      unfold fraction
      split
      · rename_i point digit rest restEq
        refine if_neg fun opens => ?_
        rw [Bool.and_eq_true, decide_eq_true_eq] at opens
        obtain ⟨rfl, isDigit⟩ := opens
        exact noFraction digit rest isDigit restEq
      · rfl
    rw [none]
    constructor
    · rintro ⟨⟩
      exact ⟨rfl, noFraction⟩
    · rintro ⟨rfl, _⟩
      rfl

/-- No power of ten is read exactly if no mark of one is there. -/
theorem exponent_eq_none_iff :
    cursor.exponent = .ok (none, next) ↔
      next = cursor ∧ NoPower cursor.rest := by
  have noPower_iff : NoPower cursor.rest ↔
      ¬ (cursor.peek? = some 'e' ∨ cursor.peek? = some 'E') := by
    unfold NoPower peek?
    cases cursor.rest <;> simp
  rw [noPower_iff, exponent]
  by_cases isMark : cursor.peek? = some 'e' ∨ cursor.peek? = some 'E'
  · rw [if_pos isMark]
    constructor
    · intro read
      dsimp only at read
      split at read
      · cases read
      · cases read
    · intro conditions
      exact absurd isMark conditions.2
  · rw [if_neg isMark]
    constructor
    · rintro ⟨⟩
      exact ⟨rfl, isMark⟩
    · rintro ⟨rfl, _⟩
      rfl

theorem exists_rest_sign (cursor : Cursor) :
    ∃ sign ∈ [[], ['+'], ['-']], cursor.rest = sign ++ cursor.sign.2.rest := by
  obtain ⟨offset, text⟩ := cursor
  unfold sign
  split
  · rename_i minus
    obtain ⟨rest, rfl⟩ := List.head?_eq_some_iff.1 minus
    exact ⟨['-'], by simp, rfl⟩
  · split
    · rename_i plus
      obtain ⟨rest, rfl⟩ := List.head?_eq_some_iff.1 plus
      exact ⟨['+'], by simp, rfl⟩
    · exact ⟨[], by simp, rfl⟩

theorem makesFloat_of_exponent {power : Int}
    (read : cursor.exponent = .ok (some power, next)) :
    MakesFloat cursor.rest := by
  unfold exponent at read
  split at read
  · rename_i isMark
    obtain ⟨mark, rest, isMark, restEq⟩ : ∃ mark rest,
        (mark = 'e' ∨ mark = 'E') ∧ cursor.rest = mark :: rest := by
      rcases isMark with lower | upper
      · obtain ⟨rest, restEq⟩ := List.head?_eq_some_iff.1 lower
        exact ⟨'e', rest, .inl rfl, restEq⟩
      · obtain ⟨rest, restEq⟩ := List.head?_eq_some_iff.1 upper
        exact ⟨'E', rest, .inr rfl, restEq⟩
    dsimp only at read
    split at read
    · cases read
    · rename_i notEmpty
      obtain ⟨sign, isSign, afterMark⟩ := exists_rest_sign cursor.skip
      obtain ⟨digit, others, isDigit, afterSign⟩ := digits_ne_nil_iff.1
        fun none => notEmpty (List.isEmpty_iff.2 none)
      have skipped : cursor.skip.rest = rest := by
        simp [skip, advance, restEq]
      rw [restEq, ← skipped, afterMark, afterSign]
      exact .power isMark isSign isDigit
  · cases read

/-- A numeral is all the digits, with the fraction and the power of ten that
follow them. -/
theorem numeral_eq_ok_iff {after : List Char} {middle : Cursor}
    (isDigit : ∀ digit ∈ digits, isDigit digit) (stops : StopsDigits after) :
    Cursor.numeral ⟨offset, digits ++ after⟩ = .ok (numeral, middle) ↔
      numeral.whole = digits ∧ ∃ afterFraction,
        Cursor.fraction ⟨offset + utf8Length digits, after⟩ =
            (numeral.fraction, afterFraction) ∧
          afterFraction.exponent = .ok (numeral.exponent, middle) := by
  rw [Cursor.numeral, digits_append _ isDigit stops]
  cases fractionRead :
      Cursor.fraction ⟨offset + utf8Length digits, after⟩ with
  | mk fraction afterFraction =>
      cases exponentRead : afterFraction.exponent with
      | error error =>
          simp only [fractionRead, exponentRead]
          constructor
          · intro read
            cases read
          · rintro ⟨_, _, same, wouldRead⟩
            cases same
            rw [exponentRead] at wouldRead
            cases wouldRead
      | ok found =>
          obtain ⟨exponent, afterExponent⟩ := found
          simp only [fractionRead, exponentRead]
          constructor
          · intro same
            cases same
            exact ⟨rfl, _, rfl, exponentRead⟩
          · rintro ⟨rfl, _, same, read⟩
            cases same
            cases exponentRead.symm.trans read
            rfl

/-- Where nothing makes a floating-point literal of digits, the digits are the
whole numeral. -/
theorem wholeNumeral_eq_ok_iff {after : List Char} {middle : Cursor}
    (isDigit : ∀ digit ∈ digits, isDigit digit) (stops : StopsDigits after)
    (notFloat : ¬ MakesFloat after) :
    Cursor.numeral ⟨offset, digits ++ after⟩ = .ok (numeral, middle) ↔
      numeral = ⟨digits, [], none⟩ ∧
        middle = ⟨offset + utf8Length digits, after⟩ ∧ NoPower after := by
  have noFraction : Cursor.fraction ⟨offset + utf8Length digits, after⟩ =
      ([], ⟨offset + utf8Length digits, after⟩) := by
    refine fraction_eq_nil_iff.2 ⟨rfl, ?_⟩
    rintro digit rest isDigit ⟨⟩
    exact notFloat (.fraction isDigit)
  rw [numeral_eq_ok_iff isDigit stops, noFraction]
  obtain ⟨whole, fraction, exponent⟩ := numeral
  constructor
  · rintro ⟨rfl, _, same, read⟩
    cases same
    cases exponent with
    | some power =>
        exact absurd (makesFloat_of_exponent read) notFloat
    | none =>
        obtain ⟨rfl, noPower⟩ := exponent_eq_none_iff.1 read
        exact ⟨rfl, rfl, noPower⟩
  · rintro ⟨same, rfl, noPower⟩
    cases same
    exact ⟨rfl, _, rfl, exponent_eq_none_iff.2 ⟨rfl, noPower⟩⟩

theorem suffix_of_integerSuffix (isSuffix : IntegerSuffix kind suffix rest)
    (notFloat : ¬ MakesFloat (suffix ++ rest)) :
    Cursor.suffix ⟨offset, suffix ++ rest⟩ false =
      (kind, ⟨offset + utf8Length suffix, rest⟩) := by
  cases isSuffix with
  | long isMark =>
      rcases isMark with rfl | rfl <;> rfl
  | none noMark =>
      cases rest with
      | nil =>
          rfl
      | cons char rest =>
          obtain ⟨notUpper, notLower⟩ := noMark char rfl
          have noMark : char ∉ ['F', 'f', 'D', 'd'] := fun isMark =>
            notFloat (.suffix isMark)
          simp only [List.mem_cons, List.not_mem_nil, not_or] at noMark
          simp [Cursor.suffix, peek?, notUpper, notLower, noMark]

theorem noPower_of_endsLiteral (isSuffix : IntegerSuffix kind suffix rest)
    (ends : EndsLiteral rest) : NoPower (suffix ++ rest) := by
  cases isSuffix with
  | none =>
      intro mark isHead
      have endsAt := ends mark isHead
      constructor <;>
        · rintro rfl
          cases endsAt
  | long isMark =>
      rintro _ ⟨⟩
      rcases isMark with rfl | rfl <;> decide

/-- A decimal integer literal denotes the integer of its digits, with a sign if
there is one, provided that its kind has this integer and that nothing goes on
with it. -/
theorem number_eq_ok_iff_of_isDecimalInteger
    (literal : IsDecimalInteger text kind digits suffix rest) :
    Cursor.number ⟨offset, text⟩ negative = .ok (value, next) ↔
      value.kind = kind ∧
        value.toInt? = some (signed negative (decimalValue digits)) ∧
          next = ⟨offset + utf8Length (digits ++ suffix), rest⟩ ∧
            EndsLiteral rest := by
  obtain ⟨rfl, isDigit, notEmpty, stops, notHexadecimal, notFloat, isSuffix⟩ :=
    literal
  have notBegins : ¬ (Cursor.mk offset
      (digits ++ (suffix ++ rest))).startsHexadecimal := fun begins =>
    notHexadecimal (startsHexadecimal_iff.1 begins)
  have place : offset + utf8Length digits + utf8Length suffix =
      offset + utf8Length (digits ++ suffix) := by
    rw [utf8Length_append, Nat.add_assoc]
  have afterSuffix : Cursor.suffix
      ⟨offset + utf8Length digits, suffix ++ rest⟩ false =
        (kind, ⟨offset + utf8Length (digits ++ suffix), rest⟩) := by
    rw [suffix_of_integerSuffix isSuffix notFloat, place]
  rw [number, if_neg notBegins, decimalNumber_eq_ok_iff]
  constructor
  · rintro ⟨numeral, middle, other, read, taken, denoted, ends⟩
    obtain ⟨rfl, rfl, _⟩ :=
      (wholeNumeral_eq_ok_iff isDigit stops notFloat).1 read
    cases afterSuffix.symm.trans taken
    obtain ⟨_, isKind, isValue⟩ :=
      (numeralValue?_eq_some_iff isSuffix.isIntegral).1 denoted
    exact ⟨isKind, isValue, rfl, ends⟩
  · rintro ⟨isKind, isValue, rfl, ends⟩
    have noPower := noPower_of_endsLiteral isSuffix ends
    exact ⟨_, _, kind,
      (wholeNumeral_eq_ok_iff isDigit stops notFloat).2 ⟨rfl, rfl, noPower⟩,
      afterSuffix, (numeralValue?_eq_some_iff isSuffix.isIntegral).2
        ⟨notEmpty, isKind, isValue⟩, ends⟩

/-! ## Literals of every form -/

theorem exists_run (accepts : Char → Bool) (text : List Char) :
    ∃ run rest, text = run ++ rest ∧ (∀ char ∈ run, accepts char) ∧
      ∀ char ∈ rest.head?, accepts char = false := by
  refine ⟨text.takeWhile accepts, text.dropWhile accepts,
    List.takeWhile_append_dropWhile.symm, fun char => List.mem_takeWhile_imp,
    fun char isHead => ?_⟩
  have stops := List.head?_dropWhile_not accepts text
  rw [Option.mem_def.1 isHead] at stops
  exact stops

theorem exists_isHexadecimalInteger (begins : BeginsHexadecimal text) :
    ∃ kind mark digits suffix rest,
      IsHexadecimalInteger text kind mark digits suffix rest := by
  obtain ⟨mark, afterMark, isMark, rfl⟩ := begins
  obtain ⟨digits, afterDigits, rfl, isDigit, stops⟩ :=
    exists_run (fun char => (hexadecimalValue? char).isSome) afterMark
  obtain ⟨kind, suffix, rest, rfl, isSuffix⟩ := exists_integerSuffix afterDigits
  exact ⟨kind, mark, digits, suffix, rest, rfl, isMark, isDigit, stops,
    isSuffix⟩

theorem not_isIntegral_suffix_true (cursor : Cursor) :
    ¬ (cursor.suffix true).1.isIntegral := by
  unfold suffix
  split
  · simp only [Bool.not_true, Bool.and_false, Bool.false_eq_true, if_false]
    split
    · exact Bool.false_ne_true
    split
    · exact Bool.false_ne_true
    · exact Bool.false_ne_true
  · exact Bool.false_ne_true

theorem not_isIntegral_suffix {char : Char}
    (isMark : char ∈ ['F', 'f', 'D', 'd']) :
    ¬ (Cursor.suffix ⟨offset, char :: rest⟩ false).1.isIntegral := by
  simp only [List.mem_cons, List.not_mem_nil, or_false] at isMark
  rcases isMark with rfl | rfl | rfl | rfl <;> exact Bool.false_ne_true

/-- What is read as an integer from decimal digits is a decimal integer
literal. -/
theorem exists_isDecimalInteger {middle : Cursor}
    (notHexadecimal : ¬ BeginsHexadecimal text)
    (read : Cursor.numeral ⟨offset, text⟩ = .ok (numeral, middle))
    (taken : middle.suffix numeral.isFractional = (kind, next))
    (isIntegral : kind.isIntegral) (notEmpty : numeral.whole ≠ []) :
    ∃ suffix, IsDecimalInteger text kind numeral.whole suffix next.rest := by
  obtain ⟨digits, after, rfl, isDigit, stops⟩ := exists_run Cursor.isDigit text
  have notFractional : numeral.isFractional = false := by
    refine Bool.eq_false_iff.2 fun isFractional => ?_
    rw [isFractional] at taken
    have isKind : (middle.suffix true).1 = kind := congrArg Prod.fst taken
    exact not_isIntegral_suffix_true middle (isKind ▸ isIntegral)
  rw [notFractional] at taken
  obtain ⟨rfl, _, fractionRead, exponentRead⟩ :=
    (numeral_eq_ok_iff isDigit stops).1 read
  obtain ⟨noFraction, noExponent⟩ :=
    Numeral.isFractional_eq_false_iff.1 notFractional
  rw [noFraction] at fractionRead
  rw [noExponent] at exponentRead
  obtain ⟨rfl, notPoint⟩ := fraction_eq_nil_iff.1 fractionRead
  obtain ⟨rfl, noPower⟩ := exponent_eq_none_iff.1 exponentRead
  have notFloat : ¬ MakesFloat after := by
    intro makesFloat
    cases makesFloat with
    | fraction isDigit =>
        exact notPoint _ _ isDigit rfl
    | power isMark =>
        have notMark := noPower _ rfl
        exact isMark.elim notMark.1 notMark.2
    | @suffix char rest isMark =>
        have isKind : (Cursor.suffix ⟨offset + utf8Length numeral.whole,
            char :: rest⟩ false).1 = kind := congrArg Prod.fst taken
        exact not_isIntegral_suffix isMark (isKind ▸ isIntegral)
  obtain ⟨_, suffix, rest, rfl, isSuffix⟩ := exists_integerSuffix after
  cases (suffix_of_integerSuffix isSuffix notFloat).symm.trans taken
  exact ⟨suffix, rfl, isDigit, notEmpty, stops, notHexadecimal, notFloat,
    isSuffix⟩

/-- A literal other than a hexadecimal one is read as a decimal one. -/
theorem number_of_not_beginsHexadecimal (notBegins : ¬ BeginsHexadecimal text) :
    Cursor.number ⟨offset, text⟩ negative =
      Cursor.decimalNumber ⟨offset, text⟩ negative :=
  if_neg fun begins => notBegins (startsHexadecimal_iff.1 begins)

/-- Nothing goes on with a literal that is read. -/
theorem endsLiteral_of_number
    (read : cursor.number negative = .ok (value, next)) :
    EndsLiteral next.rest := by
  obtain ⟨offset, text⟩ := cursor
  by_cases begins : BeginsHexadecimal text
  · obtain ⟨_, _, _, _, _, literal⟩ := exists_isHexadecimalInteger begins
    obtain ⟨_, _, _, rfl, ends⟩ :=
      (number_eq_ok_iff_of_isHexadecimalInteger literal).1 read
    exact ends
  · rw [number_of_not_beginsHexadecimal begins] at read
    obtain ⟨_, _, _, _, _, _, ends⟩ := decimalNumber_eq_ok_iff.1 read
    exact ends

/-- A minus sign before a literal negates the number. -/
theorem number_true_of_number_false
    (read : cursor.number false = .ok (value, next)) :
    cursor.number true = .ok (value.negate, next) := by
  obtain ⟨offset, text⟩ := cursor
  by_cases begins : BeginsHexadecimal text
  · obtain ⟨kind, mark, digits, suffix, rest, literal⟩ :=
      exists_isHexadecimalInteger begins
    obtain ⟨notNone, small, wraps, place, ends⟩ :=
      (number_eq_ok_iff_of_isHexadecimalInteger literal).1 read
    refine (number_eq_ok_iff_of_isHexadecimalInteger literal).2
      ⟨notNone, small, ?_, place, ends⟩
    have negated := Number.wraps_negate wraps.toInt?_eq
    refine ⟨?_, ?_⟩
    · rw [negated.kind_eq, wraps.kind_eq]
    · rw [negated.toInt?_eq, wraps.kind_eq, Int.bmod_neg_bmod]
      rfl
  · rw [number_of_not_beginsHexadecimal begins] at read ⊢
    obtain ⟨numeral, middle, kind, numeralRead, taken, denoted, ends⟩ :=
      decimalNumber_eq_ok_iff.1 read
    exact decimalNumber_eq_ok_iff.2 ⟨numeral, middle, kind, numeralRead, taken,
      numeralValue?_negate denoted, ends⟩

/-- A number that is only read behind a minus sign is the least of its kind. -/
theorem exists_least_of_number {error : Error}
    (read : cursor.number true = .ok (value, next))
    (failed : cursor.number false = .error error) :
    ∃ kind digits suffix,
      IsDecimalInteger cursor.rest kind digits suffix next.rest ∧
        decimalValue digits = 2 ^ (kind.width - 1) ∧ value.kind = kind ∧
          value.toInt? = some (-2 ^ (kind.width - 1)) := by
  obtain ⟨offset, text⟩ := cursor
  by_cases begins : BeginsHexadecimal text
  · obtain ⟨kind, mark, digits, suffix, rest, literal⟩ :=
      exists_isHexadecimalInteger begins
    obtain ⟨notNone, small, _, place, ends⟩ :=
      (number_eq_ok_iff_of_isHexadecimalInteger literal).1 read
    obtain ⟨other, wraps⟩ := Number.exists_wraps literal.isSuffix.isIntegral
      (signed false (hexadecimalValue digits))
    have alsoRead := (number_eq_ok_iff_of_isHexadecimalInteger literal).2
      ⟨notNone, small, wraps, place, ends⟩
    rw [failed] at alsoRead
    cases alsoRead
  · rw [number_of_not_beginsHexadecimal begins] at read failed
    obtain ⟨numeral, middle, kind, numeralRead, taken, denoted, ends⟩ :=
      decimalNumber_eq_ok_iff.1 read
    have notDenoted (other : Number) :
        numeralValue? kind false numeral ≠ some other := by
      intro denotes
      have alsoRead := decimalNumber_eq_ok_iff.2
        ⟨numeral, middle, kind, numeralRead, taken, denotes, ends⟩
      rw [failed] at alsoRead
      cases alsoRead
    by_cases isIntegral : kind.isIntegral
    · obtain ⟨notEmpty, isKind, isValue⟩ :=
        (numeralValue?_eq_some_iff isIntegral).1 denoted
      obtain ⟨suffix, literal⟩ := exists_isDecimalInteger begins numeralRead
        taken isIntegral notEmpty
      have fits : decimalValue numeral.whole ≤ kind.greatestMagnitude true :=
        (Number.exists_signed_iff isIntegral).1 ⟨value, isKind, isValue⟩
      have notFits :
          ¬ decimalValue numeral.whole ≤ kind.greatestMagnitude false := by
        intro fitsWithout
        obtain ⟨other, otherKind, isOther⟩ :=
          (Number.exists_signed_iff isIntegral).2 fitsWithout
        exact notDenoted other ((numeralValue?_eq_some_iff isIntegral).2
          ⟨notEmpty, otherKind, isOther⟩)
      have isGreatest : decimalValue numeral.whole = 2 ^ (kind.width - 1) := by
        simp only [NumericKind.greatestMagnitude, Bool.false_eq_true, if_true,
          if_false] at fits notFits
        omega
      refine ⟨kind, _, suffix, literal, isGreatest, isKind, ?_⟩
      rw [isValue, isGreatest, signed, if_pos rfl, Nat.cast_pow]
      rfl
    · obtain ⟨other, denotes⟩ := exists_numeralValue? isIntegral denoted
      exact absurd denotes (notDenoted other)

theorem exists_error_of_number
    (notRead : ∀ value next, cursor.number negative ≠ .ok (value, next)) :
    ∃ error, cursor.number negative = .error error ∧ error.IsWritten := by
  cases outcome : cursor.number negative with
  | ok found =>
      exact absurd outcome (notRead found.1 found.2)
  | error error =>
      exact ⟨error, rfl, (locates_of_number outcome).isWritten⟩

theorem number_of_isDecimalInteger
    (literal : IsDecimalInteger text kind digits suffix rest)
    (offset : Nat) (negative : Bool) :
    (decimalValue digits ≤ kind.greatestMagnitude negative ∧
        EndsLiteral rest →
      ∃ value : Number,
        Cursor.number ⟨offset, text⟩ negative =
            .ok (value, ⟨offset + utf8Length (digits ++ suffix), rest⟩) ∧
          value.kind = kind ∧
            value.toInt? = some (signed negative (decimalValue digits))) ∧
      (¬ (decimalValue digits ≤ kind.greatestMagnitude negative ∧
          EndsLiteral rest) →
        ∃ error, Cursor.number ⟨offset, text⟩ negative = .error error ∧
          error.IsWritten) := by
  have fits_iff : (∃ value : Number, value.kind = kind ∧
      value.toInt? = some (signed negative (decimalValue digits))) ↔
        decimalValue digits ≤ kind.greatestMagnitude negative :=
    Number.exists_signed_iff literal.isSuffix.isIntegral
  constructor
  · rintro ⟨fits, ends⟩
    obtain ⟨value, isKind, isValue⟩ := fits_iff.2 fits
    exact ⟨value, (number_eq_ok_iff_of_isDecimalInteger literal).2
      ⟨isKind, isValue, rfl, ends⟩, isKind, isValue⟩
  · intro notBoth
    refine exists_error_of_number fun value next read => notBoth ?_
    obtain ⟨isKind, isValue, _, ends⟩ :=
      (number_eq_ok_iff_of_isDecimalInteger literal).1 read
    exact ⟨fits_iff.1 ⟨value, isKind, isValue⟩, ends⟩

theorem number_of_isHexadecimalInteger
    (literal : IsHexadecimalInteger text kind mark digits suffix rest)
    (offset : Nat) (negative : Bool) :
    (digits ≠ [] ∧ hexadecimalValue digits < 2 ^ kind.width ∧
        EndsLiteral rest →
      ∃ value : Number,
        Cursor.number ⟨offset, text⟩ negative =
            .ok (value, ⟨offset + utf8Length ('0' :: mark :: digits ++ suffix),
              rest⟩) ∧
          value.Wraps kind (signed negative (hexadecimalValue digits))) ∧
      (¬ (digits ≠ [] ∧ hexadecimalValue digits < 2 ^ kind.width ∧
          EndsLiteral rest) →
        ∃ error, Cursor.number ⟨offset, text⟩ negative = .error error ∧
          error.IsWritten) := by
  constructor
  · rintro ⟨notNone, small, ends⟩
    obtain ⟨value, wraps⟩ := Number.exists_wraps literal.isSuffix.isIntegral
      (signed negative (hexadecimalValue digits))
    exact ⟨value, (number_eq_ok_iff_of_isHexadecimalInteger literal).2
      ⟨notNone, small, wraps, rfl, ends⟩, wraps⟩
  · intro notAll
    refine exists_error_of_number fun value next read => notAll ?_
    obtain ⟨notNone, small, _, _, ends⟩ :=
      (number_eq_ok_iff_of_isHexadecimalInteger literal).1 read
    exact ⟨notNone, small, ends⟩

end Cursor

/-- What the literal of a number denotes. A decimal integer literal, however
many digits it has, denotes the integer that they write exactly if its kind has
this integer and nothing goes on with the literal. A hexadecimal one denotes the
integer of its bits exactly if it has digits, its kind has so many bits and
nothing goes on with it. Otherwise the error is a fault of the written form.
With a minus sign that belongs to it, a literal denotes the negation of what it
denotes without one, up to the same place, and only the least integers need the
sign. -/
theorem number_denotes_literal (offset : Nat) (text : List Char) :
    (∀ kind digits suffix rest,
      IsDecimalInteger text kind digits suffix rest → ∀ negative,
        (decimalValue digits ≤ kind.greatestMagnitude negative ∧
            EndsLiteral rest →
          ∃ value : Number,
            Cursor.number ⟨offset, text⟩ negative =
                .ok (value, ⟨offset + utf8Length (digits ++ suffix), rest⟩) ∧
              value.kind = kind ∧
                value.toInt? =
                  some (signed negative (decimalValue digits))) ∧
          (¬ (decimalValue digits ≤ kind.greatestMagnitude negative ∧
              EndsLiteral rest) →
            ∃ error, Cursor.number ⟨offset, text⟩ negative = .error error ∧
              error.IsWritten)) ∧
      (∀ kind mark digits suffix rest,
        IsHexadecimalInteger text kind mark digits suffix rest → ∀ negative,
          (digits ≠ [] ∧ hexadecimalValue digits < 2 ^ kind.width ∧
              EndsLiteral rest →
            ∃ value : Number,
              Cursor.number ⟨offset, text⟩ negative =
                  .ok (value,
                    ⟨offset + utf8Length ('0' :: mark :: digits ++ suffix),
                      rest⟩) ∧
                value.Wraps kind
                  (signed negative (hexadecimalValue digits))) ∧
            (¬ (digits ≠ [] ∧ hexadecimalValue digits < 2 ^ kind.width ∧
                EndsLiteral rest) →
              ∃ error, Cursor.number ⟨offset, text⟩ negative = .error error ∧
                error.IsWritten)) ∧
        (∀ value next,
          Cursor.number ⟨offset, text⟩ false = .ok (value, next) →
            ∃ negated : Number,
              Constant.applyUnary .negate (.number value) =
                  .ok (.number negated) ∧
                Cursor.number ⟨offset, text⟩ true = .ok (negated, next)) ∧
          (∀ value next error,
            Cursor.number ⟨offset, text⟩ true = .ok (value, next) →
              Cursor.number ⟨offset, text⟩ false = .error error →
                ∃ kind digits suffix,
                  IsDecimalInteger text kind digits suffix next.rest ∧
                    decimalValue digits = 2 ^ (kind.width - 1) ∧
                      value.kind = kind ∧
                        value.toInt? = some (-2 ^ (kind.width - 1))) ∧
            ∀ negative value next,
              Cursor.number ⟨offset, text⟩ negative = .ok (value, next) →
                EndsLiteral next.rest :=
  ⟨fun _ _ _ _ literal => Cursor.number_of_isDecimalInteger literal offset,
    fun _ _ _ _ _ literal =>
      Cursor.number_of_isHexadecimalInteger literal offset,
    fun value _ read =>
      ⟨value.negate, rfl, Cursor.number_true_of_number_false read⟩,
    fun _ _ _ read failed => Cursor.exists_least_of_number read failed,
    fun _ _ _ read => Cursor.endsLiteral_of_number read⟩

/-- The magnitude of the least `int`, which is read behind a minus sign only,
and the bits of minus one. -/
theorem least_int_and_minus_one_read :
    IsDecimalInteger "2147483648".toList .int "2147483648".toList [] [] ∧
      (∃ value next error,
        Cursor.number ⟨1, "2147483648".toList⟩ true = .ok (value, next) ∧
          value.toInt? = some (-2147483648) ∧
            Cursor.number ⟨1, "2147483648".toList⟩ false = .error error) ∧
        IsHexadecimalInteger "0xFFFFFFFF".toList .int 'x' "FFFFFFFF".toList
          [] [] ∧
          ∃ value negated next,
            Cursor.number ⟨0, "0xFFFFFFFF".toList⟩ false = .ok (value, next) ∧
              value.toInt? = some (-1) ∧
                Constant.applyUnary .negate (.number value) =
                    .ok (.number negated) ∧
                  Cursor.number ⟨0, "0xFFFFFFFF".toList⟩ true =
                    .ok (negated, next) := by
  have digits : "2147483648".toList.all Cursor.isDigit := by decide
  have hexadecimalDigits : "FFFFFFFF".toList.all fun digit =>
      (hexadecimalValue? digit).isSome := by decide
  have decimal : IsDecimalInteger "2147483648".toList .int
      "2147483648".toList [] [] :=
    ⟨rfl, List.all_eq_true.1 digits, by decide, nofun, nofun, nofun,
      .none nofun⟩
  have hexadecimal : IsHexadecimalInteger "0xFFFFFFFF".toList .int 'x'
      "FFFFFFFF".toList [] [] :=
    ⟨rfl, .inl rfl, List.all_eq_true.1 hexadecimalDigits, nofun, .none nofun⟩
  have ends : EndsLiteral [] := nofun
  obtain ⟨decimals, _⟩ := number_denotes_literal 1 "2147483648".toList
  obtain ⟨_, hexadecimals, negations, _⟩ :=
    number_denotes_literal 0 "0xFFFFFFFF".toList
  obtain ⟨least, leastRead, _, isLeast⟩ :=
    (decimals .int _ _ _ decimal true).1 ⟨by decide, ends⟩
  obtain ⟨error, failed, _⟩ :=
    (decimals .int _ _ _ decimal false).2 fun ⟨fits, _⟩ =>
      absurd fits (by decide)
  obtain ⟨minusOne, minusOneRead, wraps⟩ :=
    (hexadecimals .int _ _ _ _ hexadecimal false).1
      ⟨by decide, by decide, ends⟩
  have isMinusOne : minusOne.toInt? = some (-1) := by
    rw [wraps.toInt?_eq]
    decide
  obtain ⟨negated, isNegated, negatedRead⟩ := negations _ _ minusOneRead
  exact ⟨decimal, ⟨least, _, error, leastRead, isLeast, failed⟩, hexadecimal,
    minusOne, negated, _, minusOneRead, isMinusOne, isNegated, negatedRead⟩

end Formula
