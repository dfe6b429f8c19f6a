import Formula.Proofs.Binary.Decimal
import Formula.Proofs.Constant.Integral
import Formula.Source.Numeral

/-!
# Magnitudes and signs

The digits of a literal write a magnitude, and a minus sign may belong to it.
Which numbers of a kind have a magnitude with a sign is settled here, and how
they change with the sign.
-/

namespace Formula

def signed (negative : Bool) (magnitude : Nat) : Int :=
  if negative then -magnitude else magnitude

/-- The greatest magnitude of the integers of a kind with a sign. -/
def NumericKind.greatestMagnitude (kind : NumericKind) (negative : Bool) :
    Nat :=
  if negative then 2 ^ (kind.width - 1) else 2 ^ (kind.width - 1) - 1

/-! ## Integers of a kind -/

namespace Number

theorem exists_wraps {kind : NumericKind} (isIntegral : kind.isIntegral)
    (exact : Int) : ∃ value : Number, value.Wraps kind exact := by
  cases kind with
  | int =>
      exact ⟨.int (.ofInt 32 exact), rfl,
        congrArg some (BitVec.toInt_ofInt exact)⟩
  | long =>
      exact ⟨.long (.ofInt 64 exact), rfl,
        congrArg some (BitVec.toInt_ofInt exact)⟩
  | float | double =>
      cases isIntegral

/-- The integers of a kind are those up to the greatest magnitudes. -/
theorem exists_signed_iff {kind : NumericKind} (isIntegral : kind.isIntegral)
    {negative : Bool} {magnitude : Nat} :
    (∃ value : Number, value.kind = kind ∧
        value.toInt? = some (signed negative magnitude)) ↔
      magnitude ≤ kind.greatestMagnitude negative := by
  have inRange_iff : magnitude ≤ kind.greatestMagnitude negative ↔
      -2 ^ (kind.width - 1) ≤ signed negative magnitude ∧
        signed negative magnitude < 2 ^ (kind.width - 1) := by
    have positive := Nat.two_pow_pos (kind.width - 1)
    have power : ((2 ^ (kind.width - 1) : Nat) : Int) =
        2 ^ (kind.width - 1) := Nat.cast_pow 2 _
    rw [← power]
    cases negative with
    | false | true =>
        simp only [NumericKind.greatestMagnitude, signed, Bool.false_eq_true,
          if_true, if_false]
        omega
  rw [inRange_iff]
  constructor
  · rintro ⟨value, rfl, isValue⟩
    cases value with
    | int bits | long bits =>
        rw [← Option.some.inj isValue]
        exact ⟨bits.le_toInt, bits.toInt_lt⟩
    | float | double =>
        cases isIntegral
  · rintro ⟨notBelow, below⟩
    cases kind with
    | int =>
        exact ⟨.int _, rfl, congrArg some
          (BitVec.toInt_ofInt_eq_self (by decide) notBelow below)⟩
    | long =>
        exact ⟨.long _, rfl, congrArg some
          (BitVec.toInt_ofInt_eq_self (by decide) notBelow below)⟩
    | float | double =>
        cases isIntegral

/-- An integer of a kind is what its own value becomes in it. -/
theorem wraps_of_toInt? {value : Number} {exact : Int}
    (isValue : value.toInt? = some exact) : value.Wraps value.kind exact := by
  cases value with
  | int bits | long bits =>
      cases isValue
      exact ⟨rfl, congrArg some (BitVec.toInt_bmod_cancel bits).symm⟩
  | float | double =>
      cases isValue

/-- A kind has one number for what an integer becomes in it. -/
theorem Wraps.unique {value other : Number} {kind : NumericKind} {exact : Int}
    (wraps : value.Wraps kind exact) (otherWraps : other.Wraps kind exact) :
    value = other := by
  have sameKind : value.kind = other.kind :=
    wraps.kind_eq.trans otherWraps.kind_eq.symm
  have sameValue : value.toInt? = other.toInt? :=
    wraps.toInt?_eq.trans otherWraps.toInt?_eq.symm
  cases value with
  | int | long =>
      cases other <;> cases sameKind
      rw [BitVec.eq_of_toInt_eq (Option.some.inj sameValue)]
  | float | double =>
      cases wraps.toInt?_eq

/-- The integers that are not negative have a negation. -/
theorem toInt?_negate {value : Number} {magnitude : Nat}
    (isValue : value.toInt? = some (signed false magnitude)) :
    value.negate.toInt? = some (signed true magnitude) := by
  have isIntegral : value.kind.isIntegral := by
    cases value with
    | int | long =>
        rfl
    | float | double =>
        cases isValue
  have small : magnitude ≤ value.kind.greatestMagnitude false :=
    (exists_signed_iff isIntegral).1 ⟨value, rfl, isValue⟩
  have fits : magnitude ≤ value.kind.greatestMagnitude true :=
    Nat.le_trans small (Nat.sub_le _ 1)
  obtain ⟨other, otherKind, isOther⟩ := (exists_signed_iff isIntegral).2 fits
  have wraps := wraps_of_toInt? isOther
  rw [otherKind] at wraps
  rw [(wraps_negate isValue).unique wraps, isOther]

end Number

/-! ## Numerals -/

namespace Numeral

variable {negative : Bool} {numeral : Numeral}

/-- A numeral is read as the integer that its digits write. -/
theorem toInteger?_eq_some_iff {width : Nat} {bits : BitVec width} :
    numeral.toInteger? width negative = some bits ↔
      numeral.whole ≠ [] ∧
        bits.toInt = signed negative (decimalValue numeral.whole) := by
  rw [toInteger?, Option.ite_none_right_eq_some]
  constructor
  · rintro ⟨⟨notEmpty, isValue⟩, isBits⟩
    cases isBits
    exact ⟨notEmpty, isValue⟩
  · rintro ⟨notEmpty, isValue⟩
    have isBits : BitVec.ofInt width
        (signed negative (decimalValue numeral.whole)) = bits := by
      rw [← isValue, BitVec.ofInt_toInt]
    exact ⟨⟨notEmpty, isBits ▸ isValue⟩, congrArg some isBits⟩

theorem isFractional_eq_false_iff :
    numeral.isFractional = false ↔
      numeral.fraction = [] ∧ numeral.exponent = none := by
  simp [isFractional]

/-- A numeral is read with a sign as the negation of what it is read as without
one. -/
theorem toBinary?_true {format : FloatFormat} :
    numeral.toBinary? format true =
      (numeral.toBinary? format false).map Binary.negate := by
  have negated : (Binary.ofDecimal true numeral.value : Binary format) =
      (Binary.ofDecimal false numeral.value).negate :=
    (Binary.negate_ofDecimal false numeral.value).symm
  simp only [toBinary?, negated, Binary.isFinite_negate]
  split <;> rfl

end Numeral

namespace Cursor

variable {kind : NumericKind} {negative : Bool} {numeral : Numeral}
  {value : Number}

theorem numeralValue?_eq_some_iff (isIntegral : kind.isIntegral) :
    numeralValue? kind negative numeral = some value ↔
      numeral.whole ≠ [] ∧ value.kind = kind ∧
        value.toInt? = some (signed negative (decimalValue numeral.whole)) := by
  cases kind with
  | int | long =>
      simp only [numeralValue?, Option.map_eq_some_iff,
        Numeral.toInteger?_eq_some_iff]
      constructor
      · rintro ⟨bits, ⟨notEmpty, isValue⟩, rfl⟩
        exact ⟨notEmpty, rfl, congrArg some isValue⟩
      · rintro ⟨notEmpty, isKind, isValue⟩
        cases value <;> cases isKind
        exact ⟨_, ⟨notEmpty, Option.some.inj isValue⟩, rfl⟩
  | float | double =>
      cases isIntegral

/-- A numeral that denotes a number denotes its negation with a sign. -/
theorem numeralValue?_negate
    (denoted : numeralValue? kind false numeral = some value) :
    numeralValue? kind true numeral = some value.negate := by
  cases kind with
  | int | long =>
      obtain ⟨notEmpty, isKind, isValue⟩ :=
        (numeralValue?_eq_some_iff rfl).1 denoted
      refine (numeralValue?_eq_some_iff rfl).2 ⟨notEmpty, ?_, ?_⟩
      · rw [← isKind, Number.kind_negate]
      · exact Number.toInt?_negate isValue
  | float | double =>
      obtain ⟨nearest, isNearest, rfl⟩ := Option.map_eq_some_iff.1 denoted
      simp only [numeralValue?, Numeral.toBinary?_true, isNearest]
      rfl

/-- A floating-point number that a numeral denotes with a sign, it denotes
without one up to the sign. -/
theorem exists_numeralValue? (notIntegral : ¬ kind.isIntegral)
    (denoted : numeralValue? kind true numeral = some value) :
    ∃ other, numeralValue? kind false numeral = some other := by
  cases kind with
  | int | long =>
      exact absurd rfl notIntegral
  | float | double =>
      simp only [numeralValue?, Numeral.toBinary?_true, Option.map_map,
        Option.map_eq_some_iff] at denoted
      obtain ⟨nearest, isNearest, _⟩ := denoted
      exact ⟨_, Option.map_eq_some_iff.2 ⟨nearest, isNearest, rfl⟩⟩

theorem bitsOf?_eq_some_iff {width magnitude : Nat} {bits : BitVec width} :
    bitsOf? width negative magnitude = some bits ↔
      magnitude < 2 ^ width ∧
        bits.toInt = (signed negative magnitude).bmod (2 ^ width) := by
  have isResult : (if negative then -BitVec.ofNat width magnitude
      else BitVec.ofNat width magnitude).toInt =
        (signed negative magnitude).bmod (2 ^ width) := by
    cases negative with
    | false =>
        exact BitVec.toInt_ofNat' magnitude
    | true =>
        rw [if_pos rfl, BitVec.toInt_neg, BitVec.toInt_ofNat']
        exact Int.bmod_neg_bmod
  rw [bitsOf?, Option.ite_none_right_eq_some, Nat.one_shiftLeft,
    Option.some_inj, ← BitVec.toInt_inj, isResult]
  exact and_congr_right fun _ => eq_comm

end Cursor

end Formula
