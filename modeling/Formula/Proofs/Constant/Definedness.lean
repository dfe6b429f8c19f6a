import Formula.Proofs.Constant.Kinds

/-!
# Operators that are defined

An operator that has a result on values is defined on their types: what types
reject has no result. With the lemmas of the other direction, the type of a
result is known exactly.
-/

namespace Formula

/-! ## Numbers -/

namespace NumericKind

theorem isIntegral_of_promote {left right : NumericKind}
    (integral : (left.promote right).isIntegral) :
    left.isIntegral ∧ right.isIntegral := by
  cases left <;> cases right <;> revert integral <;> decide

end NumericKind

theorem NumberPair.isIntegral_of_bitwise? {operator : BitwiseOperator}
    {pair : NumberPair} {value : Number}
    (defined : pair.bitwise? operator = some value) : pair.kind.isIntegral := by
  cases pair with
  | int | long =>
      rfl
  | float | double =>
      cases defined

namespace Number

theorem isIntegral_of_distance? {number : Number} {distance : BitVec 32}
    (defined : number.distance? = some distance) :
    number.kind.isIntegral := by
  cases number with
  | int | long =>
      rfl
  | float | double =>
      cases defined

theorem isIntegral_of_shift? {operator : ShiftOperator}
    {value distance shifted : Number}
    (defined : value.shift? operator distance = some shifted) :
    value.kind.isIntegral ∧ distance.kind.isIntegral := by
  unfold shift? at defined
  split at defined
  · exact ⟨rfl, isIntegral_of_distance? (by assumption)⟩
  · exact ⟨rfl, isIntegral_of_distance? (by assumption)⟩
  · cases defined

theorem isIntegral_of_complement? {value inverted : Number}
    (defined : value.complement? = some inverted) :
    value.kind.isIntegral := by
  cases value with
  | int | long =>
      rfl
  | float | double =>
      cases defined

end Number

/-! ## Types of values -/

namespace Constant

/-- A value has one kind, that of its own type. -/
theorem HasKind.eq_kind_ofConstant {value : Constant} {kind : TypeKind}
    (hasKind : value.HasKind kind) :
    kind = (StaticType.ofConstant value).kind := by
  cases kind with
  | primitive kind =>
      cases kind with
      | number kind =>
          obtain ⟨number, rfl, rfl⟩ := hasKind.exists_number
          rfl
      | boolean =>
          obtain ⟨truth, rfl⟩ := hasKind.exists_boolean
          rfl
  | string =>
      obtain ⟨text, rfl⟩ := hasKind.exists_string
      rfl
  | object className =>
      obtain ⟨host, rfl, rfl⟩ := hasKind.exists_object
      rfl
  | null =>
      rw [hasKind.eq_null]
      rfl

variable {type : StaticType}

theorem HasKind.numeric?_eq {value : Number}
    (hasKind : (number value).HasKind type.kind) :
    type.numeric? = some value.kind := by
  rw [StaticType.numeric?, hasKind.eq_kind_ofConstant]
  rfl

theorem HasKind.isBoolean {truth : Bool}
    (hasKind : (boolean truth).HasKind type.kind) : type.isBoolean := by
  rw [StaticType.isBoolean, hasKind.eq_kind_ofConstant]
  rfl

theorem HasKind.isString {text : String}
    (hasKind : (string text).HasKind type.kind) : type.isString := by
  rw [StaticType.isString, hasKind.eq_kind_ofConstant]
  rfl

theorem HasKind.primitive?_eq_none {value : Constant}
    (hasKind : value.HasKind type.kind) (isReference : value.isReference) :
    type.primitive? = none := by
  rw [StaticType.primitive?, hasKind.eq_kind_ofConstant]
  cases value with
  | number | boolean =>
      cases isReference
  | string | null | object =>
      rfl

end Constant

namespace StaticType

variable {left right : StaticType}

theorem promote?_of_numeric? {leftKind rightKind : NumericKind}
    (leftNumeric : left.numeric? = some leftKind)
    (rightNumeric : right.numeric? = some rightKind) :
    left.promote? right = some (leftKind.promote rightKind) := by
  rw [promote?, leftNumeric, rightNumeric]

theorem promoteIntegral?_of_numeric? {leftKind rightKind : NumericKind}
    (leftNumeric : left.numeric? = some leftKind)
    (rightNumeric : right.numeric? = some rightKind)
    (leftIntegral : leftKind.isIntegral)
    (rightIntegral : rightKind.isIntegral) :
    left.promoteIntegral? right = some (leftKind.promote rightKind) := by
  rw [promoteIntegral?, leftNumeric, rightNumeric]
  simp only [leftIntegral, rightIntegral, Bool.and_self, if_true]

theorem isString_eq_false_of_numeric? {type : StaticType}
    {kind : NumericKind} (numeric : type.numeric? = some kind) :
    type.isString = false := by
  simp [isString, kind_of_numeric? numeric]

theorem isBoolean_eq_false_of_numeric? {type : StaticType}
    {kind : NumericKind} (numeric : type.numeric? = some kind) :
    type.isBoolean = false := by
  simp [isBoolean, kind_of_numeric? numeric]

theorem binary?_arithmetic_of_numeric? (operator : ArithmeticOperator)
    {leftKind rightKind : NumericKind}
    (leftNumeric : left.numeric? = some leftKind)
    (rightNumeric : right.numeric? = some rightKind) :
    binary? (.arithmetic operator) left right =
      some (boxedIfBoth left right
        (.number (leftKind.promote rightKind))) := by
  have notJoining :
      ¬ (operator = .add ∧ (left.isString || right.isString)) := by
    simp [isString_eq_false_of_numeric? leftNumeric,
      isString_eq_false_of_numeric? rightNumeric]
  rw [binary?, if_neg notJoining,
    promote?_of_numeric? leftNumeric rightNumeric, Option.map_some]

theorem binary?_bitwise_of_numeric? (operator : BitwiseOperator)
    {leftKind rightKind : NumericKind}
    (leftNumeric : left.numeric? = some leftKind)
    (rightNumeric : right.numeric? = some rightKind)
    (leftIntegral : leftKind.isIntegral)
    (rightIntegral : rightKind.isIntegral) :
    binary? (.bitwise operator) left right =
      some (boxedIfBoth left right
        (.number (leftKind.promote rightKind))) := by
  have notBooleans : ¬ (left.isBoolean && right.isBoolean) := by
    simp [isBoolean_eq_false_of_numeric? leftNumeric]
  rw [binary?, if_neg notBooleans, promoteIntegral?_of_numeric? leftNumeric
    rightNumeric leftIntegral rightIntegral, Option.map_some]

theorem binary?_shift_of_numeric? (operator : ShiftOperator)
    {leftKind rightKind : NumericKind}
    (leftNumeric : left.numeric? = some leftKind)
    (rightNumeric : right.numeric? = some rightKind)
    (leftIntegral : leftKind.isIntegral)
    (rightIntegral : rightKind.isIntegral) :
    binary? (.shift operator) left right = some (number leftKind) := by
  have promoted := promoteIntegral?_of_numeric? leftNumeric rightNumeric
    leftIntegral rightIntegral
  simp only [binary?, leftNumeric, promoted]

theorem unary?_complement_of_numeric? {operand : StaticType}
    {kind : NumericKind} (numeric : operand.numeric? = some kind)
    (integral : kind.isIntegral) :
    unary? .complement operand = some (number kind) := by
  simp only [unary?, numeric, if_pos integral]

/-- Types that are held by reference alone can be compared. -/
theorem equality?_of_primitive?_eq_none (leftPlain : left.primitive? = none)
    (rightPlain : right.primitive? = none) :
    left.equality? right = some .reference := by
  have leftReference := isReference_of_primitive?_eq_none leftPlain
  have rightReference := isReference_of_primitive?_eq_none rightPlain
  obtain ⟨leftKind, leftNullable⟩ := left
  obtain ⟨rightKind, rightNullable⟩ := right
  cases leftKind with
  | primitive =>
      cases leftPlain
  | null =>
      simp [equality?, promote?, numeric?, isBoolean, rightReference]
  | string | object =>
      cases rightKind with
      | primitive =>
          cases rightPlain
      | null =>
          simp [equality?, promote?, numeric?, isBoolean, leftReference]
      | string | object =>
          simp [equality?, promote?, numeric?, isBoolean, isTextOrObject]

end StaticType

/-! ## Operators -/

namespace Constant

variable {left right value : Constant} {leftType rightType : StaticType}

theorem applyDefined?_of_apply {operator : BinaryOperator}
    (applied : left.apply operator right = .ok value) :
    applyDefined? operator left right = some (.ok value) := by
  unfold apply at applied
  cases defined : applyDefined? operator left right with
  | none =>
      rw [defined] at applied
      cases applied
  | some result =>
      rw [defined] at applied
      exact congrArg some applied

/-- Values that can be compared are two numbers, two truth values, or two
references. -/
theorem cases_of_equals? {same : Bool}
    (compared : left.equals? right = some same) :
    (∃ first second, left = .number first ∧ right = .number second) ∨
      (∃ first second, left = .boolean first ∧ right = .boolean second) ∨
      left.isReference ∧ right.isReference := by
  cases left with
  | number first =>
      cases right with
      | number second =>
          exact .inl ⟨first, second, rfl, rfl⟩
      | boolean | string | null | object =>
          cases compared
  | boolean first =>
      cases right with
      | boolean second =>
          exact .inr (.inl ⟨first, second, rfl, rfl⟩)
      | number | string | null | object =>
          cases compared
  | string | null | object =>
      cases right with
      | number | boolean =>
          cases compared
      | string | null | object =>
          exact .inr (.inr ⟨rfl, rfl⟩)

/-- Values can be compared only if their types can. -/
theorem exists_equality?_of_equals? {same : Bool}
    (compared : left.equals? right = some same)
    (leftKind : left.HasKind leftType.kind)
    (rightKind : right.HasKind rightType.kind) :
    ∃ rule, leftType.equality? rightType = some rule := by
  rcases cases_of_equals? compared with
    ⟨first, second, rfl, rfl⟩ | ⟨first, second, rfl, rfl⟩ |
    ⟨leftReference, rightReference⟩
  · have promoted := StaticType.promote?_of_numeric? leftKind.numeric?_eq
      rightKind.numeric?_eq
    exact ⟨.numeric, by simp [StaticType.equality?, promoted]⟩
  · unfold StaticType.equality?
    by_cases numeric : (leftType.promote? rightType).isSome
    · exact ⟨.numeric, if_pos numeric⟩
    · have onBooleans : leftType.isBoolean && rightType.isBoolean := by
        simp [leftKind.isBoolean, rightKind.isBoolean]
      exact ⟨.boolean, by rw [if_neg numeric, if_pos onBooleans]⟩
  · exact ⟨.reference, StaticType.equality?_of_primitive?_eq_none
      (leftKind.primitive?_eq_none leftReference)
      (rightKind.primitive?_eq_none rightReference)⟩

/-- A wrapper holds no value that can be compared with `null`. -/
theorem not_comparesWrapperWithNull_of_equals? {same : Bool}
    (compared : left.equals? right = some same)
    (leftKind : left.HasKind leftType.kind)
    (rightKind : right.HasKind rightType.kind) :
    ¬ leftType.ComparesWrapperWithNull rightType := by
  rcases cases_of_equals? compared with
    ⟨first, second, rfl, rfl⟩ | ⟨first, second, rfl, rfl⟩ |
    ⟨leftReference, rightReference⟩
  · rintro (⟨_, isNull⟩ | ⟨isNull, _⟩)
    · cases isNull.symm.trans rightKind.eq_kind_ofConstant
    · cases isNull.symm.trans leftKind.eq_kind_ofConstant
  · rintro (⟨_, isNull⟩ | ⟨isNull, _⟩)
    · cases isNull.symm.trans rightKind.eq_kind_ofConstant
    · cases isNull.symm.trans leftKind.eq_kind_ofConstant
  · rintro (⟨wraps, _⟩ | ⟨_, wraps⟩)
    · simp [StaticType.isWrapper, leftKind.primitive?_eq_none leftReference]
        at wraps
    · simp [StaticType.isWrapper, rightKind.primitive?_eq_none rightReference]
        at wraps

/-- An operator that has a result is defined on the types of its operands. -/
theorem exists_binary?_of_apply {operator : BinaryOperator}
    (applied : left.apply operator right = .ok value)
    (leftKind : left.HasKind leftType.kind)
    (rightKind : right.HasKind rightType.kind) :
    ∃ type, StaticType.binary? operator leftType rightType = some type := by
  have defined := applyDefined?_of_apply applied
  unfold applyDefined? at defined
  split at defined
  · have isString := leftKind.isString
    exact ⟨_, if_pos ⟨rfl, by simp [isString]⟩⟩
  · have isString := rightKind.isString
    exact ⟨_, if_pos ⟨rfl, by simp [isString]⟩⟩
  · exact ⟨_, StaticType.binary?_arithmetic_of_numeric? _
      leftKind.numeric?_eq rightKind.numeric?_eq⟩
  · have onBooleans : leftType.isBoolean && rightType.isBoolean := by
      simp [leftKind.isBoolean, rightKind.isBoolean]
    exact ⟨_, if_pos onBooleans⟩
  · obtain ⟨result, computed, _⟩ := Option.map_eq_some_iff.1 defined
    have integral := NumberPair.isIntegral_of_bitwise? computed
    rw [Number.kind_pair] at integral
    obtain ⟨leftIntegral, rightIntegral⟩ :=
      NumericKind.isIntegral_of_promote integral
    exact ⟨_, StaticType.binary?_bitwise_of_numeric? _ leftKind.numeric?_eq
      rightKind.numeric?_eq leftIntegral rightIntegral⟩
  · obtain ⟨result, computed, _⟩ := Option.map_eq_some_iff.1 defined
    obtain ⟨leftIntegral, rightIntegral⟩ :=
      Number.isIntegral_of_shift? computed
    exact ⟨_, StaticType.binary?_shift_of_numeric? _ leftKind.numeric?_eq
      rightKind.numeric?_eq leftIntegral rightIntegral⟩
  · have onBooleans : leftType.isBoolean && rightType.isBoolean := by
      simp [leftKind.isBoolean, rightKind.isBoolean]
    exact ⟨_, if_pos onBooleans⟩
  · obtain ⟨same, compared, _⟩ := Option.map_eq_some_iff.1 defined
    obtain ⟨rule, comparable⟩ :=
      exists_equality?_of_equals? compared leftKind rightKind
    exact ⟨_, congrArg (Option.map _) comparable⟩
  · have promoted := StaticType.promote?_of_numeric? leftKind.numeric?_eq
      rightKind.numeric?_eq
    exact ⟨_, congrArg (Option.map _) promoted⟩
  · cases defined

/-- The result of an operator has the kind that the types of its operands
foretell. -/
theorem exists_type_of_apply {operator : BinaryOperator}
    (applied : left.apply operator right = .ok value)
    (leftKind : left.HasKind leftType.kind)
    (rightKind : right.HasKind rightType.kind) :
    ∃ type, StaticType.binary? operator leftType rightType = some type ∧
      value.HasKind type.kind := by
  obtain ⟨type, defined⟩ := exists_binary?_of_apply applied leftKind rightKind
  have distinct : operator.isEquality →
      ¬ leftType.ComparesWrapperWithNull rightType := by
    intro isEquality
    cases operator with
    | equality operator =>
        obtain ⟨same, compared, _⟩ :=
          Option.map_eq_some_iff.1 (applyDefined?_of_apply applied)
        exact not_comparesWrapperWithNull_of_equals? compared leftKind
          rightKind
    | _ =>
        cases isEquality
  rcases apply_of_binary? defined distinct leftKind rightKind with
    divides | ⟨result, appliedAgain, hasKind⟩
  · cases applied.symm.trans divides
  · cases applied.symm.trans appliedAgain
    exact ⟨type, defined, hasKind⟩

/-- So has the result of a unary operator. -/
theorem exists_type_of_applyUnary {operator : UnaryOperator}
    {operand : Constant} {operandType : StaticType}
    (applied : operand.applyUnary operator = .ok value)
    (hasKind : operand.HasKind operandType.kind) :
    ∃ type, StaticType.unary? operator operandType = some type ∧
      value.HasKind type.kind := by
  have defined :
      ∃ type, StaticType.unary? operator operandType = some type := by
    simp only [applyUnary] at applied
    split at applied
    · exact ⟨_, by rw [StaticType.unary?, hasKind.numeric?_eq]; rfl⟩
    · exact ⟨_, by rw [StaticType.unary?, hasKind.numeric?_eq]; rfl⟩
    · exact ⟨_, if_pos hasKind.isBoolean⟩
    · split at applied
      · rename_i inverted computed
        have integral := Number.isIntegral_of_complement? computed
        exact ⟨_, StaticType.unary?_complement_of_numeric? hasKind.numeric?_eq
          integral⟩
      · cases applied
    · cases applied
  obtain ⟨type, defined⟩ := defined
  obtain ⟨result, appliedAgain, resultKind⟩ :=
    exists_applyUnary_of_unary? defined hasKind
  cases applied.symm.trans appliedAgain
  exact ⟨type, defined, resultKind⟩

end Constant

end Formula
