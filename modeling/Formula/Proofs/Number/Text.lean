import Formula.Proofs.Binary.Decimal
import Formula.Proofs.Source.Grammar
import Formula.Proofs.Source.Numeral

/-!
# Texts of numbers

The text of a number is a numeral behind a sign. Wherever the point stands in
it, and whatever zeros surround its digits, the numeral denotes the number that
was written.
-/

namespace Formula

/-! ## Numerals of decimals -/

namespace Numeral

theorem isDigit_zero : Cursor.isDigit '0' := rfl

/-- The digits of a decimal with zeros around them make this decimal, if the
point and the power of ten say so. -/
theorem value_eq_shift {numeral : Numeral} {decimal : Decimal}
    (positive : 0 < decimal.coefficient) (leading : Nat) {zeros : Nat}
    (digits : numeral.digits =
      List.replicate leading '0' ++
        (decimal.digits ++ List.replicate zeros '0'))
    (exponent : numeral.exponent.getD 0 - numeral.fraction.length =
      decimal.exponent - zeros) :
    numeral.value = decimal.shift zeros := by
  rw [value, digits, exponent, decimalValue_replicate_append, Decimal.digits,
    ← Decimal.toDigits_mul_pow positive, decimalValue_toDigits]
  rfl

/-- The digits after a point, which are never none. -/
def fractionDigits (fraction : List Char) : List Char :=
  if fraction.isEmpty then ['0'] else fraction

/-- The digits of a decimal with the point after some of them. -/
def pointedAfter (decimal : Decimal) (width : Nat) (exponent : Option Int) :
    Numeral :=
  ⟨decimal.digits.take width ++
      List.replicate (width - decimal.digits.length) '0',
    fractionDigits (decimal.digits.drop width), exponent⟩

/-- A decimal below one, with zeros after the point. -/
def pointedBefore (decimal : Decimal) (zeros : Nat) : Numeral :=
  ⟨['0'], List.replicate zeros '0' ++ decimal.digits, none⟩

/-- A numeral can be read, has a fraction, and denotes a decimal. -/
structure Writes (numeral : Numeral) (decimal : Decimal) : Prop where
  readable : numeral.IsReadable
  fraction : numeral.fraction ≠ []
  value : ∃ zeros, numeral.value = decimal.shift zeros

variable {decimal : Decimal}

theorem isDigit_of_mem_digits {char : Char} (isDigit : char ∈ decimal.digits) :
    Cursor.isDigit char :=
  Cursor.isDigit_of_mem_toDigits isDigit

theorem isDigit_of_mem_replicate {zeros : Nat} {char : Char}
    (isZero : char ∈ List.replicate zeros '0') : Cursor.isDigit char := by
  rw [List.eq_of_mem_replicate isZero]
  exact isDigit_zero

theorem digits_pointedAfter (decimal : Decimal) (width : Nat)
    (exponent : Option Int) :
    (pointedAfter decimal width exponent).digits =
        decimal.digits ++
          List.replicate (width + 1 - decimal.digits.length) '0' ∧
      ((pointedAfter decimal width exponent).fraction.length : Int) =
        decimal.digits.length - width +
          (width + 1 - decimal.digits.length : Nat) := by
  simp only [pointedAfter, Numeral.digits, fractionDigits]
  by_cases beyond : width < decimal.digits.length
  · have notEmpty : ¬ (decimal.digits.drop width).isEmpty := by
      simp [beyond]
    have noZeros : width - decimal.digits.length = 0 := by
      omega
    have noneLeft : width + 1 - decimal.digits.length = 0 := by
      omega
    rw [if_neg notEmpty, noZeros, noneLeft]
    refine ⟨by simp, ?_⟩
    rw [List.length_drop]
    omega
  · -- No digit is left for the fraction, so it is one more zero.
    have isEmpty : (decimal.digits.drop width).isEmpty := by
      simp [Nat.not_lt.1 beyond]
    have oneMore : width + 1 - decimal.digits.length =
        width - decimal.digits.length + 1 := by
      omega
    rw [if_pos isEmpty, List.take_of_length_le (Nat.not_lt.1 beyond), oneMore,
      List.replicate_succ', List.append_assoc]
    refine ⟨rfl, ?_⟩
    rw [List.length_singleton]
    omega

theorem fractionDigits_ne_nil (fraction : List Char) :
    fractionDigits fraction ≠ [] := by
  rw [fractionDigits]
  split
  · exact List.cons_ne_nil _ _
  · rename_i notEmpty
    exact fun empty => notEmpty (List.isEmpty_iff.2 empty)

theorem isDigit_of_mem_fractionDigits {fraction : List Char}
    (isFraction : ∀ char ∈ fraction, Cursor.isDigit char) {char : Char}
    (isDigit : char ∈ fractionDigits fraction) : Cursor.isDigit char := by
  rw [fractionDigits] at isDigit
  split at isDigit
  · rw [List.mem_singleton.1 isDigit]
    exact isDigit_zero
  · exact isFraction char isDigit

/-- A decimal is denoted by its digits, with zeros at the end, if the power of
ten makes up for the place of the point. -/
theorem writes_pointedAfter (positive : 0 < decimal.coefficient)
    {width : Nat} (notNone : 0 < width) {exponent : Option Int}
    (small : ∀ power ∈ exponent, power.natAbs < 65536)
    (isPlace : exponent.getD 0 = decimal.leadingExponent - (width - 1)) :
    (pointedAfter decimal width exponent).Writes decimal := by
  have someDigits : 0 < decimal.digits.length := Nat.length_toDigits_pos
  obtain ⟨digits, length⟩ := digits_pointedAfter decimal width exponent
  have isWhole : ∀ char ∈ (pointedAfter decimal width exponent).whole,
      Cursor.isDigit char := by
    intro char isChar
    rcases List.mem_append.1 isChar with isTaken | isZero
    · exact isDigit_of_mem_digits (List.mem_of_mem_take isTaken)
    · exact isDigit_of_mem_replicate isZero
  have notEmpty : (pointedAfter decimal width exponent).whole ≠ [] := by
    have isTaken : decimal.digits.take width ≠ [] := by
      rw [← List.length_pos_iff, List.length_take]
      omega
    exact List.append_ne_nil_of_left_ne_nil isTaken _
  have isFraction : ∀ char ∈ (pointedAfter decimal width exponent).fraction,
      Cursor.isDigit char := fun char =>
    isDigit_of_mem_fractionDigits fun char isDropped =>
      isDigit_of_mem_digits (List.mem_of_mem_drop isDropped)
  refine ⟨⟨isWhole, notEmpty, isFraction, small⟩, fractionDigits_ne_nil _, _,
    value_eq_shift positive 0 digits ?_⟩
  have isExponent : (pointedAfter decimal width exponent).exponent.getD 0 =
      decimal.leadingExponent - (width - 1) := isPlace
  rw [isExponent, length, Decimal.leadingExponent]
  omega

/-- A decimal below one is denoted by its digits with zeros before them. -/
theorem writes_pointedBefore (positive : 0 < decimal.coefficient)
    {zeros : Nat} (isPlace : decimal.leadingExponent = -(zeros + 1 : Int)) :
    (pointedBefore decimal zeros).Writes decimal := by
  have someDigits : 0 < decimal.digits.length := Nat.length_toDigits_pos
  have digits : (pointedBefore decimal zeros).digits =
      List.replicate (zeros + 1) '0' ++
        (decimal.digits ++ List.replicate 0 '0') := by
    rw [List.replicate_zero, List.append_nil]
    rfl
  have isFraction : ∀ char ∈ (pointedBefore decimal zeros).fraction,
      Cursor.isDigit char := by
    intro char isChar
    rcases List.mem_append.1 isChar with isZero | isDigit
    · exact isDigit_of_mem_replicate isZero
    · exact isDigit_of_mem_digits isDigit
  refine ⟨⟨?_, List.cons_ne_nil _ _, isFraction, nofun⟩, ?_, _,
    value_eq_shift positive _ digits ?_⟩
  · exact List.forall_mem_singleton.2 isDigit_zero
  · exact List.append_ne_nil_of_right_ne_nil _
      (List.length_pos_iff.1 someDigits)
  · simp only [pointedBefore, Option.getD_none, List.length_append,
      List.length_replicate]
    rw [Decimal.leadingExponent] at isPlace
    omega

end Numeral

/-! ## Texts of floating-point numbers -/

namespace FloatNotation

open Numeral (fractionDigits fractionDigits_ne_nil fractionText pointedAfter
  pointedBefore)

theorem toList_pointed (whole fraction : List Char) :
    (pointed whole fraction).toList =
      whole ++ fractionText (fractionDigits fraction) := by
  obtain ⟨first, digits, isCons⟩ :=
    List.exists_cons_of_ne_nil (fractionDigits_ne_nil fraction)
  have written : pointed whole fraction =
      String.ofList (whole ++ '.' :: fractionDigits fraction) := rfl
  rw [written, String.toList_ofList, isCons]
  rfl

theorem toList_plain_of_nonneg {decimal : Decimal} {place : Int}
    (notNegative : 0 ≤ place) :
    (plain decimal.digits place).toList =
      (pointedAfter decimal (place.toNat + 1) none).text := by
  rw [plain, if_pos notNegative]
  dsimp only
  rw [toList_pointed, Numeral.text]
  exact congrArg _ (List.append_nil _).symm

theorem toList_plain_of_neg {decimal : Decimal} {place : Int}
    (negative : place < 0) :
    (plain decimal.digits place).toList =
      (pointedBefore decimal ((-place).toNat - 1)).text := by
  have someDigits : decimal.digits ≠ [] := Cursor.toDigits_ne_nil _
  have sameFraction : fractionDigits
      (List.replicate ((-place).toNat - 1) '0' ++ decimal.digits) =
        List.replicate ((-place).toNat - 1) '0' ++ decimal.digits := by
    refine if_neg fun empty => ?_
    exact List.append_ne_nil_of_right_ne_nil _ someDigits
      (List.isEmpty_iff.1 empty)
  rw [plain, if_neg (Int.not_le.2 negative), toList_pointed, sameFraction,
    Numeral.text]
  exact congrArg _ (List.append_nil _).symm

theorem toList_scientific {decimal : Decimal} {place : Int} :
    (value.scientific decimal.digits place).toList =
      (pointedAfter decimal 1 (some place)).text := by
  have someDigits : 0 < decimal.digits.length := Nat.length_toDigits_pos
  have noZeros : 1 - decimal.digits.length = 0 := by
    omega
  have written : value.scientific decimal.digits place =
      pointed (decimal.digits.take 1) (decimal.digits.drop 1) ++ "E" ++
        toString place := rfl
  rw [written, String.toList_append, String.toList_append, toList_pointed,
    Numeral.text, pointedAfter, noZeros]
  simp [Numeral.exponentText]

/-- The numeral that is written for a decimal. -/
def numeral (decimal : Decimal) : Numeral :=
  if value.plainFrom ≤ decimal.leadingExponent ∧
      decimal.leadingExponent < value.plainBelow then
    if 0 ≤ decimal.leadingExponent then
      pointedAfter decimal (decimal.leadingExponent.toNat + 1) none
    else pointedBefore decimal ((-decimal.leadingExponent).toNat - 1)
  else pointedAfter decimal 1 (some decimal.leadingExponent)

theorem toList_numeral (decimal : Decimal) :
    (if value.plainFrom ≤ decimal.leadingExponent ∧
        decimal.leadingExponent < value.plainBelow then
      plain decimal.digits decimal.leadingExponent
    else value.scientific decimal.digits decimal.leadingExponent).toList =
      (numeral decimal).text := by
  rw [numeral]
  split
  · split
    · rename_i notNegative
      exact toList_plain_of_nonneg notNegative
    · rename_i negative
      exact toList_plain_of_neg (Int.not_le.1 negative)
  · exact toList_scientific

/-- A decimal is written as a numeral that denotes it. -/
theorem writes_numeral {decimal : Decimal}
    (positive : 0 < decimal.coefficient)
    (small : decimal.leadingExponent.natAbs < 65536) :
    (numeral decimal).Writes decimal := by
  rw [numeral]
  split
  · split
    · have isPlace : (none : Option Int).getD 0 = decimal.leadingExponent -
          ((decimal.leadingExponent.toNat + 1 : Nat) - 1) := by
        rw [Option.getD_none]
        omega
      have noPower : ∀ power ∈ (none : Option Int), power.natAbs < 65536 :=
        nofun
      exact Numeral.writes_pointedAfter positive (Nat.succ_pos _) noPower
        isPlace
    · exact Numeral.writes_pointedBefore positive (by omega)
  · refine Numeral.writes_pointedAfter positive Nat.one_pos ?_ ?_
    · rintro _ ⟨⟩
      exact small
    · simp

variable {format : FloatFormat} {x : Binary format}

theorem toList_text (isFinite : x.isFinite) :
    (value.text x).toList =
      (if x.isNegative then ['-'] else []) ++
        (value.magnitudeText x).toList := by
  rw [text, if_neg (Binary.not_isNaN_of_isFinite isFinite)]
  split
  · rw [String.toList_append]
    rfl
  · rfl

theorem toList_text_of_not_isZero (isFinite : x.isFinite)
    (notZero : ¬ x.isZero) :
    (value.text x).toList =
      (if x.isNegative then ['-'] else []) ++
        (numeral x.shortestDecimal).text := by
  rw [toList_text isFinite, magnitudeText,
    if_neg (Binary.not_isInfinite_of_isFinite isFinite), if_neg notZero]
  exact congrArg _ (toList_numeral x.shortestDecimal)

/-- The shortest decimal of a finite number is written as a numeral that denotes
it, if the format has no greater powers than numerals. -/
theorem writes_numeral_shortestDecimal
    (modest : format.resolution + 2 < 65536 ∧
      2 ^ format.exponentBits ≤ 65536) (isFinite : x.isFinite)
    (notZero : ¬ x.isZero) :
    (numeral x.shortestDecimal).Writes x.shortestDecimal := by
  have read := Binary.ofDecimal_shortestDecimal isFinite notZero
  obtain ⟨positive, notBelow, notAbove⟩ :=
    Binary.bounds_of_ofDecimal isFinite notZero read
  exact writes_numeral positive (by omega)

/-- A finite number is written as a numeral behind its sign, and the numeral is
read as this number. -/
theorem exists_numeral_of_text
    (modest : format.resolution + 2 < 65536 ∧
      2 ^ format.exponentBits ≤ 65536) (isFinite : x.isFinite) :
    ∃ numeral : Numeral, numeral.IsReadable ∧ numeral.fraction ≠ [] ∧
      (value.text x).toList =
        (if x.isNegative then ['-'] else []) ++ numeral.text ∧
      Binary.ofDecimal x.isNegative numeral.value = x := by
  by_cases isZero : x.isZero
  · rw [toList_text isFinite, magnitudeText,
      if_neg (Binary.not_isInfinite_of_isFinite isFinite), if_pos isZero]
    refine ⟨⟨['0'], ['0'], none⟩, ⟨?_, List.cons_ne_nil _ _, ?_, nofun⟩,
      List.cons_ne_nil _ _, rfl, ?_⟩
    · exact List.forall_mem_singleton.2 rfl
    · exact List.forall_mem_singleton.2 rfl
    · exact (Binary.eq_zero_of_isZero isZero).symm
  · have read := Binary.ofDecimal_shortestDecimal isFinite isZero
    have writes := writes_numeral_shortestDecimal modest isFinite isZero
    obtain ⟨zeros, shifted⟩ := writes.value
    refine ⟨_, writes.readable, writes.fraction,
      toList_text_of_not_isZero isFinite isZero, ?_⟩
    rw [shifted, Binary.ofDecimal_shift, read]

end FloatNotation

/-! ## Texts of numbers -/

namespace Number

/-- A number that is neither infinite nor no number. -/
def IsFinite : Number → Prop
  | .int _ | .long _ => True
  | .float value => value.isFinite
  | .double value => value.isFinite

end Number

namespace Numeral

/-- The digits of an integer of a width are read as this integer, with its
sign. -/
theorem toInteger?_toDigits {width : Nat} (value : BitVec width) :
    toInteger? width (decide (value.toInt < 0))
        ⟨Nat.toDigits 10 value.toInt.natAbs, [], none⟩ =
      some value := by
  have signed : (if decide (value.toInt < 0) then
      -(value.toInt.natAbs : Int) else value.toInt.natAbs) =
        value.toInt := by
    simp only [decide_eq_true_eq]
    split <;> omega
  simp only [toInteger?, decimalValue_toDigits, signed, BitVec.ofInt_toInt]
  exact if_pos ⟨Cursor.toDigits_ne_nil _, trivial⟩

theorem toBinary?_eq_some {format : FloatFormat} {negative : Bool}
    {numeral : Numeral} {x : Binary format} (isFinite : x.isFinite)
    (notEmpty : numeral.whole ≠ [])
    (read : Binary.ofDecimal negative numeral.value = x) :
    numeral.toBinary? format negative = some x := by
  have digits : numeral.digits ≠ [] :=
    List.append_ne_nil_of_left_ne_nil notEmpty _
  simp only [toBinary?, read]
  exact if_pos ⟨digits, isFinite⟩

theorem isReadable_toDigits (number : Nat) :
    IsReadable ⟨Nat.toDigits 10 number, [], none⟩ where
  whole := fun _ => Cursor.isDigit_of_mem_toDigits
  notEmpty := Cursor.toDigits_ne_nil number
  fraction := nofun
  exponent := nofun

end Numeral

namespace Number

open Numeral (Denotes isReadable_toDigits toInteger?_toDigits toBinary?_eq_some)

/-- The text of an integer is its digits behind a sign. -/
theorem toList_toString_toInt {width : Nat} (value : BitVec width) :
    (toString value.toInt).toList =
      (if decide (value.toInt < 0) then ['-'] else []) ++
        Numeral.text ⟨Nat.toDigits 10 value.toInt.natAbs, [], none⟩ := by
  rw [toList_toString_int]
  simp [Numeral.text, Numeral.fractionText, Numeral.exponentText]

theorem isFractional_of_ne_nil {numeral : Numeral}
    (fraction : numeral.fraction ≠ []) : numeral.isFractional := by
  simp [Numeral.isFractional, fraction]

/-- The text of a finite number is a numeral behind a sign, and together they
denote this number. -/
theorem exists_denotes {number : Number} (isFinite : number.IsFinite) :
    ∃ (numeral : Numeral) (negative : Bool),
      numeral.Denotes negative number ∧
        number.text.toList =
          (if negative then ['-'] else []) ++ numeral.text := by
  cases number with
  | int value | long value =>
      refine ⟨_, _, ⟨isReadable_toDigits _, rfl, ?_⟩,
        toList_toString_toInt value⟩
      simp only [kind, Cursor.numeralValue?, toInteger?_toDigits]
      rfl
  | float value | double value =>
      obtain ⟨numeral, readable, fraction, written, read⟩ :=
        FloatNotation.exists_numeral_of_text (by decide) isFinite
      refine ⟨numeral, value.isNegative, ⟨readable,
        isFractional_of_ne_nil fraction, ?_⟩, written⟩
      simp only [kind, Cursor.numeralValue?,
        toBinary?_eq_some isFinite readable.notEmpty read]
      rfl

end Number

/-! ## Reading back -/

namespace Cursor

theorem isBlank_of_isDigit {char : Char} (isDigit : isDigit char) :
    isBlank char = false := by
  refine Bool.eq_false_iff.2 fun isBlank => ?_
  simp only [Cursor.isBlank, Bool.or_eq_true, decide_eq_true_eq] at isBlank
  rcases isBlank with ((rfl | rfl) | rfl) | rfl <;> cases isDigit

theorem skipBlanks_cons {char : Char} (notBlank : isBlank char = false)
    (offset : Nat) (rest : List Char) :
    (Cursor.mk offset (char :: rest)).skipBlanks = ⟨offset, char :: rest⟩ := by
  simp only [skipBlanks, span, List.takeWhile_cons, notBlank]
  rfl

/-- Every unary operator is a single character. -/
theorem munches_minus (offset : Nat) (rest : List Char) :
    Cursor.Munches UnaryOperator.symbol ⟨offset, '-' :: rest⟩ .negate
      ⟨offset + 1, rest⟩ := by
  refine ⟨⟨rest, rfl⟩, fun other _ => ?_, rfl⟩
  cases other <;> decide

end Cursor

/-- The text of a finite number, with the suffix of its kind, spells this
number. -/
theorem spells_number {keywords : Keywords} {number : Number}
    (isFinite : number.IsFinite) :
    Spells keywords (number.text ++ number.kind.suffix)
      (.operand (.constant (.number number))) := by
  obtain ⟨numeral, negative, denotes, written⟩ := number.exists_denotes isFinite
  obtain ⟨digit, rest, isCons, isDigit⟩ :=
    Cursor.exists_digit_text denotes.readable
  have follows (offset : Nat) : Cursor.startsNumber
      ⟨offset, numeral.text ++ number.kind.suffix.toList⟩ := by
    rw [isCons]
    exact Cursor.startsNumber_of_isDigit isDigit offset _
  rw [Spells, Cursor.start, String.toList_append, written]
  cases negative with
  | false =>
      have noBlanks : (Cursor.mk 0
          (numeral.text ++ number.kind.suffix.toList)).skipBlanks =
            ⟨0, numeral.text ++ number.kind.suffix.toList⟩ := by
        rw [isCons]
        exact Cursor.skipBlanks_cons (Cursor.isBlank_of_isDigit isDigit) 0 _
      have derives : Derives keywords 14
          ⟨0, numeral.text ++ number.kind.suffix.toList⟩
          (.operand (.constant (.number number))) _ :=
        .number (by rw [noBlanks]; exact follows 0)
          (by rw [noBlanks]; exact Cursor.number_text denotes 0)
      exact ⟨_, derives.loosen_of_le (by decide), rfl⟩
  | true =>
      have sign := Cursor.munches_minus 0
        (numeral.text ++ number.kind.suffix.toList)
      have derives : Derives keywords 14
          ⟨0, '-' :: (numeral.text ++ number.kind.suffix.toList)⟩
          (.operand (.constant (.number number))) _ :=
        .negativeNumber sign (follows 1) (Cursor.number_text denotes 1)
      exact ⟨_, derives.loosen_of_le (by decide), rfl⟩

/-- The text that a finite number contributes to a string is, with the suffix
of its kind, a source for this number: of the same kind and with the same
bits. -/
theorem finite_number_reads_back (language : Language)
    (room : 1 ≤ language.limit) (number : Number)
    (isFinite : number.IsFinite) :
    language.parse ((Constant.number number).text ++ number.kind.suffix) =
      .ok [.operand (.constant (.number number))] :=
  Language.parse_eq_ok_iff.2 ⟨_, Expression.ofSource_eq_ok_iff.2
    ⟨spells_number isFinite, room⟩, rfl⟩

/-- Least integers, zeros with a sign and numbers far below one. -/
theorem extreme_numbers_read_back :
    Language.standard.parse "-9223372036854775808L" =
        .ok [.operand (.constant (.number (.long (.intMin 64))))] ∧
      Language.standard.parse "-0.0" =
        .ok [.operand (.constant (.number (.double (.zero true))))] ∧
      Language.standard.parse "1.0E-45F" =
        .ok [.operand (.constant (.number (.float ⟨1⟩)))] := by
  have long := finite_number_reads_back .standard (by decide)
    (.long (.intMin 64)) trivial
  have double := finite_number_reads_back .standard (by decide)
    (.double (.zero true)) (by decide : Binary.isFinite _)
  have float := finite_number_reads_back .standard (by decide)
    (.float ⟨1⟩) (by decide : Binary.isFinite _)
  have longText : Number.text (.long (.intMin 64)) =
      "-9223372036854775808" := by
    decide +kernel
  have doubleText : Number.text (.double (.zero true)) = "-0.0" := by
    decide
  have floatText : Number.text (.float ⟨1⟩) = "1.0E-45" := by
    decide +kernel
  rw [Constant.text, longText] at long
  rw [Constant.text, doubleText] at double
  rw [Constant.text, floatText] at float
  exact ⟨long, double, float⟩

end Formula
