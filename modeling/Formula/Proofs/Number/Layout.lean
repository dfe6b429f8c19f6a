import Formula.Proofs.Binary.Order
import Formula.Proofs.Number.Text

/-!
# Layouts of floating-point numbers

Numbers from a thousandth up to ten millions are written with the point among
their digits, others with the point after the first digit and a power of ten.
Either way there is a digit on both sides of the point, and no zero is written
that is not needed for this or for the place of the point.
-/

namespace Formula

/-! ## Digits -/

namespace Decimal

variable {decimal : Decimal}

theorem digitChar_ne_zero {digit : Nat} (positive : 0 < digit)
    (small : digit < 10) : digit.digitChar ≠ '0' := by
  have all : ∀ other < 10, 0 < other → Nat.digitChar other ≠ '0' := by
    decide
  exact all digit small positive

/-- The first digit of a positive number is not zero. -/
theorem head?_toDigits_ne_zero {number : Nat} (positive : 0 < number) :
    (Nat.toDigits 10 number).head? ≠ some '0' := by
  induction number using Nat.strong_induction_on with
  | h number inductionHypothesis =>
      rcases Nat.lt_or_ge number 10 with small | notSmall
      · rw [Nat.toDigits_of_lt_base small]
        intro isZero
        exact digitChar_ne_zero positive small (Option.some.inj isZero)
      · rw [Nat.toDigits_of_base_le (by decide) notSmall,
          List.head?_append_of_ne_nil _ (Cursor.toDigits_ne_nil _)]
        exact inductionHypothesis (number / 10) (by omega) (by omega)

theorem exists_digits_eq_cons (positive : 0 < decimal.coefficient) :
    ∃ first rest, decimal.digits = first :: rest ∧ first ≠ '0' := by
  obtain ⟨first, rest, isCons⟩ :=
    List.exists_cons_of_ne_nil (Cursor.toDigits_ne_nil decimal.coefficient)
  refine ⟨first, rest, isCons, fun isZero => ?_⟩
  apply head?_toDigits_ne_zero positive
  rw [isCons, isZero]
  rfl

/-- Without zeros at the end, the last digit is not zero. -/
theorem getLast?_digits_ne_zero (notRound : decimal.coefficient % 10 ≠ 0) :
    decimal.digits.getLast? ≠ some '0' := by
  have isNonzero := digitChar_ne_zero (Nat.pos_of_ne_zero notRound)
    (Nat.mod_lt _ (by decide))
  intro isZero
  rw [digits] at isZero
  rcases Nat.lt_or_ge decimal.coefficient 10 with small | notSmall
  · rw [Nat.toDigits_of_lt_base small] at isZero
    rw [Nat.mod_eq_of_lt small] at isNonzero
    exact isNonzero (Option.some.inj isZero)
  · rw [Nat.toDigits_of_base_le (by decide) notSmall,
      List.getLast?_concat] at isZero
    exact isNonzero (Option.some.inj isZero)

theorem withoutTrailingZeros_notRound (coefficient : Nat) (exponent : Int)
    (positive : 0 < (withoutTrailingZeros coefficient exponent).coefficient) :
    (withoutTrailingZeros coefficient exponent).coefficient % 10 ≠ 0 := by
  fun_induction withoutTrailingZeros coefficient exponent with
  | case1 coefficient exponent ends inductionHypothesis =>
      exact inductionHypothesis positive
  | case2 coefficient exponent ends =>
      exact fun isRound => ends ⟨positive, isRound⟩

/-- A decimal whose digits all stand before the point is an integer. -/
theorem exists_toRat_eq_natCast (notNegative : 0 ≤ decimal.exponent) :
    ∃ integer : Nat, decimal.toRat = integer := by
  refine ⟨decimal.coefficient * 10 ^ decimal.exponent.toNat, ?_⟩
  have power : (10 : ℚ) ^ decimal.exponent =
      10 ^ decimal.exponent.toNat := by
    rw [← zpow_natCast, Int.toNat_of_nonneg notNegative]
  rw [toRat, power]
  push_cast
  rfl

end Decimal

/-! ## Layouts -/

namespace Numeral

/-- Plain notation. There is a digit on both sides of the point, zero is the
first one only if it is the only one before the point, and it is the last one
only if it is the only one after the point, in an integer. -/
structure IsPlain (numeral : Numeral) : Prop where
  exponent : numeral.exponent = none
  whole : numeral.whole = ['0'] ∨
    ∃ first rest, numeral.whole = first :: rest ∧ first ≠ '0'
  fraction : numeral.fraction ≠ []
  ending : numeral.fraction.getLast? = some '0' →
    numeral.fraction = ['0'] ∧ ∃ integer : Nat, numeral.value.toRat = integer

/-- Scientific notation of a decimal. There is one digit before the point, and
at least one after it; zero is the last one only if it is the only one there,
beside a decimal of one digit. -/
structure IsScientific (numeral : Numeral) (decimal : Decimal) : Prop where
  exponent : numeral.exponent = some decimal.leadingExponent
  whole : ∃ first, numeral.whole = [first] ∧ first ≠ '0'
  fraction : numeral.fraction ≠ []
  ending : numeral.fraction.getLast? = some '0' →
    numeral.fraction = ['0'] ∧ decimal.digits.length = 1

variable {decimal : Decimal}

theorem Writes.toRat_value {numeral : Numeral}
    (writes : numeral.Writes decimal) :
    numeral.value.toRat = decimal.toRat := by
  obtain ⟨zeros, shifted⟩ := writes.value
  rw [shifted, Decimal.toRat_shift]

/-- The digits after the point end with zero only if there are none and zero
stands for them. -/
theorem fraction_pointedAfter_eq_zero
    (notRound : decimal.coefficient % 10 ≠ 0) {width : Nat}
    {exponent : Option Int}
    (endsZero : (pointedAfter decimal width exponent).fraction.getLast? =
      some '0') :
    (pointedAfter decimal width exponent).fraction = ['0'] ∧
      decimal.digits.length ≤ width := by
  simp only [pointedAfter, fractionDigits] at endsZero ⊢
  split at endsZero
  · rename_i isEmpty
    rw [if_pos isEmpty]
    rw [List.isEmpty_iff, List.drop_eq_nil_iff] at isEmpty
    exact ⟨rfl, isEmpty⟩
  · rename_i notEmpty
    rw [List.isEmpty_iff, List.drop_eq_nil_iff] at notEmpty
    rw [List.getLast?_drop, if_neg notEmpty] at endsZero
    exact absurd endsZero (Decimal.getLast?_digits_ne_zero notRound)

theorem exists_whole_pointedAfter (positive : 0 < decimal.coefficient)
    {width : Nat} (notNone : 0 < width) (exponent : Option Int) :
    ∃ first rest,
      (pointedAfter decimal width exponent).whole = first :: rest ∧
        first ≠ '0' := by
  obtain ⟨first, rest, isCons, isNonzero⟩ :=
    Decimal.exists_digits_eq_cons positive
  obtain ⟨width, rfl⟩ := Nat.exists_eq_succ_of_ne_zero (Nat.ne_of_gt notNone)
  simp only [pointedAfter, isCons, List.take_succ_cons, List.cons_append]
  exact ⟨first, _, rfl, isNonzero⟩

theorem isPlain_pointedAfter (positive : 0 < decimal.coefficient)
    (notRound : decimal.coefficient % 10 ≠ 0) {width : Nat}
    (isPlace : decimal.leadingExponent + 1 = width) (notNone : 0 < width)
    (writes : (pointedAfter decimal width none).Writes decimal) :
    (pointedAfter decimal width none).IsPlain where
  exponent := rfl
  whole := .inr (exists_whole_pointedAfter positive notNone none)
  fraction := writes.fraction
  ending endsZero := by
    obtain ⟨isZero, allBefore⟩ :=
      fraction_pointedAfter_eq_zero notRound endsZero
    refine ⟨isZero, ?_⟩
    rw [writes.toRat_value]
    apply Decimal.exists_toRat_eq_natCast
    rw [Decimal.leadingExponent] at isPlace
    omega

theorem isPlain_pointedBefore (notRound : decimal.coefficient % 10 ≠ 0)
    {zeros : Nat} (writes : (pointedBefore decimal zeros).Writes decimal) :
    (pointedBefore decimal zeros).IsPlain where
  exponent := rfl
  whole := .inl rfl
  fraction := writes.fraction
  ending endsZero := by
    have isLast : (List.replicate zeros '0' ++ decimal.digits).getLast? =
        decimal.digits.getLast? :=
      List.getLast?_append_of_ne_nil _ (Cursor.toDigits_ne_nil _)
    rw [pointedBefore, isLast] at endsZero
    exact absurd endsZero (Decimal.getLast?_digits_ne_zero notRound)

theorem isScientific_pointedAfter (positive : 0 < decimal.coefficient)
    (notRound : decimal.coefficient % 10 ≠ 0)
    (writes : (pointedAfter decimal 1
      (some decimal.leadingExponent)).Writes decimal) :
    (pointedAfter decimal 1 (some decimal.leadingExponent)).IsScientific
      decimal where
  exponent := rfl
  whole := by
    obtain ⟨first, rest, isCons, isNonzero⟩ :=
      Decimal.exists_digits_eq_cons positive
    refine ⟨first, ?_, isNonzero⟩
    rw [pointedAfter, isCons]
    simp
  fraction := writes.fraction
  ending endsZero := by
    obtain ⟨isZero, atMostOne⟩ :=
      fraction_pointedAfter_eq_zero notRound endsZero
    have someDigits : 0 < decimal.digits.length := Nat.length_toDigits_pos
    exact ⟨isZero, by omega⟩

end Numeral

/-! ## Texts -/

/-- A numeral lays out a number: it denotes the shortest decimal of the number,
and is plain exactly for numbers from a thousandth up to ten millions. -/
structure Numeral.LaysOut {format : FloatFormat} (numeral : Numeral)
    (x : Binary format) : Prop where
  readable : numeral.IsReadable
  denotes : numeral.value.toRat = x.shortestDecimal.toRat
  plain : 1 / 1000 ≤ x.absolute → x.absolute < 10 ^ 7 → numeral.IsPlain
  scientific : ¬ (1 / 1000 ≤ x.absolute ∧ x.absolute < 10 ^ 7) →
    numeral.IsScientific x.shortestDecimal

namespace FloatNotation

variable {format : FloatFormat} {x : Binary format}

/-- The range of plain notation is one of values as well as of first digits. -/
theorem isPlainRange_iff (isKnown : format = .single ∨ format = .double)
    (isFinite : x.isFinite) (notZero : ¬ x.isZero) :
    (value.plainFrom ≤ x.shortestDecimal.leadingExponent ∧
        x.shortestDecimal.leadingExponent < value.plainBelow) ↔
      1 / 1000 ≤ x.absolute ∧ x.absolute < 10 ^ 7 := by
  have thousandth := (Binary.isThreshold isKnown (.inl rfl)).pow_le_absolute_iff
    isFinite notZero
  have tenMillions :=
    (Binary.isThreshold isKnown (.inr rfl)).pow_le_absolute_iff isFinite notZero
  have isThousandth : (10 : ℚ) ^ (-3 : Int) = 1 / 1000 := by
    norm_num
  have isTenMillions : (10 : ℚ) ^ (7 : Int) = 10 ^ 7 := by
    norm_num
  rw [isThousandth] at thousandth
  rw [isTenMillions] at tenMillions
  have belowTenMillions : x.absolute < 10 ^ 7 ↔
      x.shortestDecimal.leadingExponent < 7 := by
    rw [← not_le, tenMillions, Int.not_le]
  rw [thousandth, belowTenMillions]
  rfl

theorem laysOut_numeral (isKnown : format = .single ∨ format = .double)
    (isFinite : x.isFinite) (notZero : ¬ x.isZero) :
    (numeral x.shortestDecimal).LaysOut x := by
  have modest : format.resolution + 2 < 65536 ∧
      2 ^ format.exponentBits ≤ 65536 := by
    rcases isKnown with rfl | rfl <;> decide
  have writes := writes_numeral_shortestDecimal modest isFinite notZero
  have positive := (Binary.bounds_of_ofDecimal isFinite notZero
    (Binary.ofDecimal_shortestDecimal isFinite notZero)).1
  have notRound : x.shortestDecimal.coefficient % 10 ≠ 0 :=
    Decimal.withoutTrailingZeros_notRound _ _ positive
  have range := isPlainRange_iff isKnown isFinite notZero
  refine ⟨writes.readable, writes.toRat_value, fun atLeast below => ?_,
    fun outside => ?_⟩
  · have inRange := range.2 ⟨atLeast, below⟩
    rw [numeral, if_pos inRange] at writes ⊢
    split at writes
    · rename_i notNegative
      rw [if_pos notNegative]
      exact Numeral.isPlain_pointedAfter positive notRound (by omega)
        (Nat.succ_pos _) writes
    · rename_i negative
      rw [if_neg negative]
      exact Numeral.isPlain_pointedBefore notRound writes
  · rw [numeral, if_neg (mt range.1 outside)] at writes ⊢
    exact Numeral.isScientific_pointedAfter positive notRound writes

end FloatNotation

/-- The text of a finite number other than zero is a numeral that denotes its
shortest decimal, behind its sign. Numbers from a thousandth up to ten millions
are plain, others scientific, with at least one digit on both sides of the
point, no superfluous zero before it and none after it but a single one. -/
theorem text_lays_out_shortest_decimal :
    (∀ x : Single, x.isFinite → ¬ x.isZero → ∃ numeral : Numeral,
      numeral.LaysOut x ∧ (Constant.number (.float x)).text.toList =
        (if x.isNegative then ['-'] else []) ++ numeral.text) ∧
    ∀ x : Double, x.isFinite → ¬ x.isZero → ∃ numeral : Numeral,
      numeral.LaysOut x ∧ (Constant.number (.double x)).text.toList =
        (if x.isNegative then ['-'] else []) ++ numeral.text := by
  constructor
  · intro x isFinite notZero
    exact ⟨_, FloatNotation.laysOut_numeral (.inl rfl) isFinite notZero,
      FloatNotation.toList_text_of_not_isZero isFinite notZero⟩
  · intro x isFinite notZero
    exact ⟨_, FloatNotation.laysOut_numeral (.inr rfl) isFinite notZero,
      FloatNotation.toList_text_of_not_isZero isFinite notZero⟩

/-- The least plain number of 64 bits, and a number of 32 bits beyond ten
millions. -/
theorem layouts_of_thousandth_and_sixteen_millions :
    let x : Double := .ofDecimal false ⟨1, -3⟩
    let y : Single := .ofDecimal true ⟨16777216, 0⟩
    (∃ numeral : Numeral, numeral.LaysOut x ∧
      numeral.text = "0.001".toList) ∧
    ∃ numeral : Numeral, numeral.LaysOut y ∧
      '-' :: numeral.text = "-1.6777216E7".toList := by
  intro x y
  have firstText : (Constant.number (.double x)).text = "0.001" := by
    decide +kernel
  have secondText : (Constant.number (.float y)).text = "-1.6777216E7" := by
    decide +kernel
  obtain ⟨first, firstLaysOut, firstWritten⟩ :=
    text_lays_out_shortest_decimal.2 x (by decide +kernel) (by decide +kernel)
  obtain ⟨second, secondLaysOut, secondWritten⟩ :=
    text_lays_out_shortest_decimal.1 y (by decide +kernel) (by decide +kernel)
  have notNegative : x.isNegative = false := by
    decide +kernel
  have negative : y.isNegative = true := by
    decide +kernel
  rw [firstText, notNegative] at firstWritten
  rw [secondText, negative] at secondWritten
  exact ⟨⟨first, firstLaysOut, firstWritten.symm⟩,
    second, secondLaysOut, secondWritten.symm⟩

end Formula
