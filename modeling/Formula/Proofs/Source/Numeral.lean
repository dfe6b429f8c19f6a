import Formula.Number.Text
import Formula.Source.Numeral

/-!
# Written numerals

A decimal numeral that is written out, with its point and its power of ten, is
read back digit for digit, whatever follows that does not go on with it.
-/

namespace Formula

/-! ## Digits -/

theorem decimalValue_eq_ofDigitChars (digits : List Char) :
    decimalValue digits = Nat.ofDigitChars 10 digits 0 := by
  simp only [decimalValue, Nat.ofDigitChars, Nat.mul_comm]

theorem decimalValue_toDigits (number : Nat) :
    decimalValue (Nat.toDigits 10 number) = number := by
  rw [decimalValue_eq_ofDigitChars, Nat.ofDigitChars_ten_toDigits]

/-- Zeros before the first digit do not matter. -/
theorem decimalValue_replicate_append (zeros : Nat) (digits : List Char) :
    decimalValue (List.replicate zeros '0' ++ digits) =
      decimalValue digits := by
  induction zeros with
  | zero =>
      rfl
  | succ zeros inductionHypothesis =>
      exact inductionHypothesis

/-- The number that digits make of what was read before them. -/
def decimalValueFrom (value : Nat) (digits : List Char) : Nat :=
  digits.foldl (fun value digit => value * 10 + (digit.toNat - '0'.toNat))
    value

theorem le_decimalValueFrom (digits : List Char) :
    ∀ value, value ≤ decimalValueFrom value digits := by
  induction digits with
  | nil =>
      exact Nat.le_refl
  | cons digit digits inductionHypothesis =>
      intro value
      have next : value ≤ value * 10 + (digit.toNat - '0'.toNat) := by
        omega
      exact Nat.le_trans next (inductionHypothesis _)

/-- An exponent that counts is read like any number. -/
theorem exponentValue_eq_decimalValue {digits : List Char}
    (small : decimalValue digits < 65536) :
    exponentValue digits = decimalValue digits := by
  have counted (digits : List Char) : ∀ value,
      decimalValueFrom value digits < 65536 →
        digits.foldl
            (fun value digit =>
              if value < 65536 then value * 10 + (digit.toNat - '0'.toNat)
              else value)
            value =
          decimalValueFrom value digits := by
    induction digits with
    | nil =>
        intro value bounded
        rfl
    | cons digit digits inductionHypothesis =>
        intro value bounded
        have counts : value < 65536 :=
          Nat.lt_of_le_of_lt (le_decimalValueFrom (digit :: digits) value)
            bounded
        rw [List.foldl_cons, if_pos counts]
        exact inductionHypothesis _ bounded
  exact counted digits 0 small

namespace Cursor

theorem isDigit_of_mem_toDigits {number : Nat} {char : Char}
    (isDigit : char ∈ Nat.toDigits 10 number) : Cursor.isDigit char :=
  Nat.isDigit_of_mem_toDigits (by decide) (by decide) isDigit

end Cursor

/-- The text of an integer: a sign, if it is negative, and digits. -/
theorem toList_toString_int (value : Int) :
    (toString value).toList =
      (if value < 0 then ['-'] else []) ++ Nat.toDigits 10 value.natAbs := by
  cases value with
  | ofNat number =>
      have text : toString (Int.ofNat number) = toString number := rfl
      have notNegative : ¬ Int.ofNat number < 0 :=
        Int.not_lt.2 (Int.natCast_nonneg number)
      rw [text, Nat.toString_eq_ofList_toDigits, String.toList_ofList,
        if_neg notNegative]
      rfl
  | negSucc number =>
      have text : toString (Int.negSucc number) =
          "-" ++ toString (number + 1) := rfl
      rw [text, String.toList_append, Nat.toString_eq_ofList_toDigits,
        if_pos (Int.negSucc_lt_zero number)]
      exact congrArg _ String.toList_ofList

/-! ## Texts of numerals -/

namespace Numeral

/-- A point and the digits after it, if there are any. -/
def fractionText : List Char → List Char
  | [] => []
  | digit :: digits => '.' :: digit :: digits

def exponentText : Option Int → List Char
  | none => []
  | some power => 'E' :: (toString power).toList

def text (numeral : Numeral) : List Char :=
  numeral.whole ++
    (fractionText numeral.fraction ++ exponentText numeral.exponent)

/-- A numeral is made of digits, with one before the point, and of a power of
ten that counts. -/
structure IsReadable (numeral : Numeral) : Prop where
  whole : ∀ char ∈ numeral.whole, Cursor.isDigit char
  notEmpty : numeral.whole ≠ []
  fraction : ∀ char ∈ numeral.fraction, Cursor.isDigit char
  exponent : ∀ power ∈ numeral.exponent, power.natAbs < 65536

end Numeral

namespace Cursor

def StopsDigits (rest : List Char) : Prop :=
  ∀ char ∈ rest.head?, isDigit char = false

/-- A text does not go on with a numeral that it follows. -/
structure StopsNumeral (rest : List Char) : Prop where
  digits : StopsDigits rest
  point : rest.head? ≠ some '.'
  lowerMark : rest.head? ≠ some 'e'
  upperMark : rest.head? ≠ some 'E'

/-- A span ends where a text of accepted characters does, if no such character
follows. -/
theorem span_append {accepts : Char → Bool} {text rest : List Char}
    (offset : Nat) (accepted : ∀ char ∈ text, accepts char)
    (stops : ∀ char ∈ rest.head?, accepts char = false) :
    Cursor.span ⟨offset, text ++ rest⟩ accepts =
      (text, ⟨offset + utf8Length text, rest⟩) := by
  have none : rest.takeWhile accepts = [] := by
    cases rest with
    | nil =>
        rfl
    | cons char rest =>
        have stopped : accepts char = false := stops char rfl
        rw [List.takeWhile_cons, stopped]
        rfl
  have taken : (text ++ rest).takeWhile accepts = text := by
    rw [List.takeWhile_append_of_pos accepted, none, List.append_nil]
  simp only [span, taken, advance, List.drop_left]

theorem digits_append {text rest : List Char} (offset : Nat)
    (isText : ∀ char ∈ text, isDigit char) (stops : StopsDigits rest) :
    Cursor.digits ⟨offset, text ++ rest⟩ =
      (text, ⟨offset + utf8Length text, rest⟩) :=
  span_append offset isText stops

theorem fraction_fractionText {fraction rest : List Char} (offset : Nat)
    (isFraction : ∀ char ∈ fraction, isDigit char)
    (stops : StopsDigits rest) (noPoint : rest.head? ≠ some '.') :
    Cursor.fraction ⟨offset, Numeral.fractionText fraction ++ rest⟩ =
      (fraction,
        ⟨offset + utf8Length (Numeral.fractionText fraction), rest⟩) := by
  cases fraction with
  | nil =>
      cases rest with
      | nil =>
          rfl
      | cons point rest =>
          have notPoint : point ≠ '.' := fun isPoint =>
            noPoint (congrArg some isPoint)
          cases rest with
          | nil =>
              rfl
          | cons first rest =>
              simp [Cursor.fraction, Numeral.fractionText, notPoint]
  | cons first fraction =>
      have isFirst := isFraction first List.mem_cons_self
      have after : (Cursor.mk offset
          (Numeral.fractionText (first :: fraction) ++ rest)).skip =
            ⟨offset + utf8Length ['.'], first :: fraction ++ rest⟩ := rfl
      have opens : Cursor.fraction ⟨offset,
          Numeral.fractionText (first :: fraction) ++ rest⟩ =
            (Cursor.mk offset
              (Numeral.fractionText (first :: fraction) ++ rest)).skip.digits :=
        if_pos (by simp [isFirst])
      rw [opens, after, digits_append _ isFraction stops, Numeral.fractionText,
        utf8Length_cons '.' (first :: fraction)]
      simp only [utf8Length_cons, utf8Length_nil, Nat.add_zero, Nat.add_assoc]

theorem toDigits_ne_nil (number : Nat) : Nat.toDigits 10 number ≠ [] :=
  List.length_pos_iff.1 Nat.length_toDigits_pos

/-- The sign of an integer is read, and its digits follow. -/
theorem sign_toString (offset : Nat) (value : Int) (rest : List Char) :
    Cursor.sign ⟨offset, (toString value).toList ++ rest⟩ =
      (decide (value < 0),
        ⟨offset + utf8Length (if value < 0 then ['-'] else []),
          Nat.toDigits 10 value.natAbs ++ rest⟩) := by
  rw [toList_toString_int]
  by_cases negative : value < 0
  · rw [if_pos negative, decide_eq_true negative]
    exact if_pos rfl
  · rw [if_neg negative, decide_eq_false negative]
    obtain ⟨digit, digits, isCons⟩ :=
      List.exists_cons_of_ne_nil (toDigits_ne_nil value.natAbs)
    have isDigit : Cursor.isDigit digit :=
      isDigit_of_mem_toDigits (isCons ▸ List.mem_cons_self)
    have peeks : (Cursor.mk offset
        ([] ++ Nat.toDigits 10 value.natAbs ++ rest)).peek? = some digit := by
      rw [isCons]
      rfl
    have notMinus : ¬ some digit = some '-' := by
      rintro ⟨⟩
      cases isDigit
    have notPlus : ¬ some digit = some '+' := by
      rintro ⟨⟩
      cases isDigit
    rw [Cursor.sign, peeks, if_neg notMinus, if_neg notPlus]
    rfl

theorem exponent_exponentText {exponent : Option Int} {rest : List Char}
    (offset : Nat) (small : ∀ power ∈ exponent, power.natAbs < 65536)
    (stops : StopsNumeral rest) :
    Cursor.exponent ⟨offset, Numeral.exponentText exponent ++ rest⟩ =
      .ok (exponent,
        ⟨offset + utf8Length (Numeral.exponentText exponent), rest⟩) := by
  cases exponent with
  | none =>
      have noMark : ¬ ((Cursor.mk offset rest).peek? = some 'e' ∨
          (Cursor.mk offset rest).peek? = some 'E') := fun isMark =>
        isMark.elim stops.lowerMark stops.upperMark
      exact if_neg noMark
  | some power =>
      have digits : ∀ char ∈ Nat.toDigits 10 power.natAbs, isDigit char :=
        fun char => isDigit_of_mem_toDigits
      have value : exponentValue (Nat.toDigits 10 power.natAbs) =
          power.natAbs := by
        rw [exponentValue_eq_decimalValue, decimalValue_toDigits]
        rw [decimalValue_toDigits]
        exact small power rfl
      have notEmpty : ¬ (Nat.toDigits 10 power.natAbs).isEmpty := fun empty =>
        toDigits_ne_nil _ (List.isEmpty_iff.1 empty)
      have isPower : (if power < 0 then -(power.natAbs : Int)
          else power.natAbs) = power := by
        split <;> omega
      have after : (Cursor.mk offset
          (Numeral.exponentText (some power) ++ rest)).skip =
            ⟨offset + utf8Length ['E'], (toString power).toList ++ rest⟩ := rfl
      rw [Cursor.exponent, if_pos (.inr rfl), after, sign_toString]
      simp only [digits_append _ digits stops.digits, if_neg notEmpty, value,
        decide_eq_true_eq, isPower]
      rw [Numeral.exponentText, toList_toString_int]
      simp only [utf8Length_cons, utf8Length_append, utf8Length_nil,
        Nat.add_zero, Nat.add_assoc]

/-- A numeral is read back as it was written. -/
theorem numeral_text {numeral : Numeral} (readable : numeral.IsReadable)
    {rest : List Char} (stops : StopsNumeral rest) (offset : Nat) :
    Cursor.numeral ⟨offset, numeral.text ++ rest⟩ =
      .ok (numeral, ⟨offset + utf8Length numeral.text, rest⟩) := by
  obtain ⟨whole, fraction, exponent⟩ := numeral
  obtain ⟨isWhole, _, isFraction, isExponent⟩ := readable
  have afterFraction : StopsDigits (Numeral.exponentText exponent ++ rest) ∧
      (Numeral.exponentText exponent ++ rest).head? ≠ some '.' := by
    cases exponent with
    | none =>
        exact ⟨stops.digits, stops.point⟩
    | some power =>
        refine ⟨?_, by simp [Numeral.exponentText]⟩
        rintro _ ⟨⟩
        rfl
  have afterWhole : StopsDigits (Numeral.fractionText fraction ++
      (Numeral.exponentText exponent ++ rest)) := by
    cases fraction with
    | nil =>
        exact afterFraction.1
    | cons =>
        rintro _ ⟨⟩
        rfl
  have written : Numeral.text ⟨whole, fraction, exponent⟩ ++ rest =
      whole ++ (Numeral.fractionText fraction ++
        (Numeral.exponentText exponent ++ rest)) := by
    simp only [Numeral.text, List.append_assoc]
  rw [written, Cursor.numeral]
  simp only [digits_append _ isWhole afterWhole,
    fraction_fractionText _ isFraction afterFraction.1 afterFraction.2,
    exponent_exponentText _ isExponent stops, Numeral.text, utf8Length_append,
    Nat.add_assoc]

end Cursor

/-! ## Texts of numbers -/

/-- The suffix that gives a literal its kind. Literals without a fraction or a
power of ten are integers as they are, others are doubles. -/
def NumericKind.suffix : NumericKind → String
  | .int | .double => ""
  | .long => "L"
  | .float => "F"

/-- A numeral denotes a number of the kind that its form and a suffix give
it. -/
structure Numeral.Denotes (numeral : Numeral) (negative : Bool)
    (number : Number) : Prop where
  readable : numeral.IsReadable
  fractional : numeral.isFractional = !number.kind.isIntegral
  value : Cursor.numeralValue? number.kind negative numeral = some number

namespace Cursor

theorem stopsNumeral_suffix (kind : NumericKind) :
    StopsNumeral kind.suffix.toList := by
  cases kind with
  | int | double =>
      exact ⟨by rintro _ ⟨⟩, nofun, nofun, nofun⟩
  | long | float =>
      exact ⟨by rintro _ ⟨⟩; rfl, by decide, by decide, by decide⟩

theorem suffix_suffix (kind : NumericKind) (offset : Nat) :
    Cursor.suffix ⟨offset, kind.suffix.toList⟩ (!kind.isIntegral) =
      (kind, ⟨offset + utf8Length kind.suffix.toList, []⟩) := by
  cases kind <;> rfl

variable {numeral : Numeral} {negative : Bool} {number : Number}

theorem startsHexadecimal_text (readable : numeral.IsReadable)
    (kind : NumericKind) (offset : Nat) :
    Cursor.startsHexadecimal
      ⟨offset, numeral.text ++ kind.suffix.toList⟩ = false := by
  obtain ⟨whole, fraction, exponent⟩ := numeral
  obtain ⟨isWhole, notEmpty, _, _⟩ := readable
  obtain ⟨first, whole, rfl⟩ := List.exists_cons_of_ne_nil notEmpty
  cases whole with
  | cons second whole =>
      have isDigit : Cursor.isDigit second :=
        isWhole second (List.mem_cons_of_mem _ List.mem_cons_self)
      have notMark : second ≠ 'x' ∧ second ≠ 'X' := by
        constructor <;> rintro rfl <;> cases isDigit
      simp [Cursor.startsHexadecimal, Numeral.text, notMark]
  | nil =>
      cases fraction with
      | cons =>
          simp [Cursor.startsHexadecimal, Numeral.text, Numeral.fractionText]
      | nil =>
          cases exponent with
          | some =>
              simp [Cursor.startsHexadecimal, Numeral.text,
                Numeral.fractionText, Numeral.exponentText]
          | none =>
              cases kind <;>
                simp [Cursor.startsHexadecimal, Numeral.text,
                  Numeral.fractionText, Numeral.exponentText,
                  NumericKind.suffix]

/-- A number is read from the numeral and the suffix that denote it. -/
theorem number_text (denotes : numeral.Denotes negative number)
    (offset : Nat) :
    Cursor.number ⟨offset, numeral.text ++ number.kind.suffix.toList⟩
        negative =
      .ok (number, ⟨offset + utf8Length
        (numeral.text ++ number.kind.suffix.toList), []⟩) := by
  have notHexadecimal : ¬ Cursor.startsHexadecimal
      ⟨offset, numeral.text ++ number.kind.suffix.toList⟩ := by
    rw [startsHexadecimal_text denotes.readable]
    exact Bool.false_ne_true
  rw [Cursor.number, if_neg notHexadecimal, decimalNumber,
    numeral_text denotes.readable (stopsNumeral_suffix _)]
  simp only [denotes.fractional, suffix_suffix, denotes.value]
  rw [utf8Length_append, ← Nat.add_assoc]
  rfl

theorem exists_digit_text (readable : numeral.IsReadable) :
    ∃ digit rest, numeral.text = digit :: rest ∧ isDigit digit := by
  obtain ⟨first, whole, isCons⟩ :=
    List.exists_cons_of_ne_nil readable.notEmpty
  refine ⟨first, _, by rw [Numeral.text, isCons]; rfl, ?_⟩
  exact readable.whole first (isCons ▸ List.mem_cons_self)

theorem startsNumber_of_isDigit {digit : Char} (isDigit : isDigit digit)
    (offset : Nat) (rest : List Char) :
    Cursor.startsNumber ⟨offset, digit :: rest⟩ := by
  cases rest with
  | nil =>
      exact isDigit
  | cons second rest =>
      simp [Cursor.startsNumber, isDigit]

end Cursor

end Formula
