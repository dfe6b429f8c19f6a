import Formula.Lowering
import Formula.Proofs.Constant.Kinds

/-!
# Plans by case

What the code of an operator can be, with the types of the operands that lead
to it. An operator that is defined on the types of its operands always has a
plan, and its plan is one of these.
-/

namespace Formula

/-! ## Codes -/

theorem BinaryOperator.ofCode?_of_code? {operator : BinaryOperator}
    {code : UInt8} (coded : operator.code? = some code) :
    BinaryOperator.ofCode? code = some operator := by
  cases operator with
  | arithmetic operator | bitwise operator | shift operator =>
      cases operator <;> cases coded <;> decide
  | equality | relational | logical | member =>
      cases coded

/-! ## Binary operators -/

/-- A plan is the one for operands of two types and a result of a third. -/
inductive BinaryPlan.Suits (left right : StaticType) :
    BinaryPlan → BinaryOperator → StaticType → Prop
  | concatenation (hasString : left.isString ∨ right.isString) :
      Suits left right
        ⟨stringifying left, stringifying right, .concatenate, []⟩
        (.arithmetic .add) .string
  | arithmetic {operator : ArithmeticOperator} {code : UInt8}
      {kind : NumericKind} (promoted : left.promote? right = some kind)
      (coded : (BinaryOperator.arithmetic operator).code? = some code) :
      Suits left right
        ⟨coercion left kind, coercion right kind,
          .operate (.number kind) code,
          boxing (left.boxedIfBoth right (.number kind))⟩
        (.arithmetic operator) (left.boxedIfBoth right (.number kind))
  | bitwise {operator : BitwiseOperator} {code : UInt8} {kind : NumericKind}
      (promoted : left.promoteIntegral? right = some kind)
      (coded : (BinaryOperator.bitwise operator).code? = some code) :
      Suits left right
        ⟨coercion left kind, coercion right kind,
          .operate (.number kind) code,
          boxing (left.boxedIfBoth right (.number kind))⟩
        (.bitwise operator) (left.boxedIfBoth right (.number kind))
  | bitwiseBooleans {operator : BitwiseOperator} {code : UInt8}
      (leftBoolean : left.isBoolean) (rightBoolean : right.isBoolean)
      (coded : (BinaryOperator.bitwise operator).code? = some code) :
      Suits left right
        ⟨unboxing left, unboxing right, .operate .boolean code,
          boxing (left.boxedIfBoth right .boolean)⟩
        (.bitwise operator) (left.boxedIfBoth right .boolean)
  | shift {operator : ShiftOperator} {code : UInt8}
      {kind distanceKind : NumericKind} (numeric : left.numeric? = some kind)
      (distance : right.numeric? = some distanceKind)
      (integral : kind.isIntegral) (whole : distanceKind.isIntegral)
      (coded : (BinaryOperator.shift operator).code? = some code) :
      Suits left right
        ⟨unboxing left,
          if right.numeric? = some .long then
            unboxing right ++ [.convert .longToInt]
          else unboxing right,
          .operate (.number kind) code, []⟩
        (.shift operator) (.number kind)
  | logical (operator : LogicalOperator) (leftBoolean : left.isBoolean)
      (rightBoolean : right.isBoolean) :
      Suits left right
        ⟨unboxing left, unboxing right, .logical operator, []⟩
        (.logical operator) .boolean
  | booleanComparison (operator : EqualityOperator)
      (leftBoolean : left.isBoolean) (rightBoolean : right.isBoolean) :
      Suits left right
        ⟨unboxing left, unboxing right, .compareBooleans operator, []⟩
        (.equality operator) .boolean
  | comparison {operator : BinaryOperator} {comparison : Comparison}
      {kind : NumericKind} (compares : operator.comparison? = some comparison)
      (promoted : left.promote? right = some kind) :
      Suits left right
        ⟨coercion left kind, coercion right kind,
          .compareNumbers kind comparison, []⟩
        operator .boolean
  | referenceComparison (operator : EqualityOperator)
      (compared : left.equality? right = some .reference) :
      Suits left right ⟨[], [], .compareReferences operator, []⟩
        (.equality operator) .boolean

namespace BinaryPlan

variable {left right type : StaticType}

theorem exists_code_of_arithmetic (operator : ArithmeticOperator) :
    ∃ code, (BinaryOperator.arithmetic operator).code? = some code := by
  cases operator <;> exact ⟨_, rfl⟩

theorem exists_code_of_bitwise (operator : BitwiseOperator) :
    ∃ code, (BinaryOperator.bitwise operator).code? = some code := by
  cases operator <;> exact ⟨_, rfl⟩

theorem exists_code_of_shift (operator : ShiftOperator) :
    ∃ code, (BinaryOperator.shift operator).code? = some code := by
  cases operator <;> exact ⟨_, rfl⟩

theorem exists_suits_of_arithmetic {operator : ArithmeticOperator}
    (defined :
      StaticType.binary? (.arithmetic operator) left right = some type) :
    ∃ plan, of? (.arithmetic operator) left right type = some plan ∧
      plan.Suits left right (.arithmetic operator) type := by
  by_cases concatenates :
      operator = .add ∧ (left.isString || right.isString)
  · simp only [StaticType.binary?, if_pos concatenates] at defined
    obtain ⟨rfl, hasString⟩ := concatenates
    cases defined
    exact ⟨_, rfl, .concatenation (by simpa using hasString)⟩
  · simp only [StaticType.binary?, if_neg concatenates] at defined
    obtain ⟨kind, promoted, rfl⟩ := Option.map_eq_some_iff.1 defined
    obtain ⟨code, coded⟩ := exists_code_of_arithmetic operator
    have notString :
        ¬ (operator = .add ∧
          (left.boxedIfBoth right (.number kind)).isString) := by
      rintro ⟨_, isString⟩
      cases isString
    have isNumeric :
        (left.boxedIfBoth right (.number kind)).numeric?.isSome := rfl
    refine ⟨_, ?_, .arithmetic promoted coded⟩
    rw [of?, if_neg notString, if_pos isNumeric, operating?, coded]
    rfl

theorem exists_suits_of_bitwise {operator : BitwiseOperator}
    (defined :
      StaticType.binary? (.bitwise operator) left right = some type) :
    ∃ plan, of? (.bitwise operator) left right type = some plan ∧
      plan.Suits left right (.bitwise operator) type := by
  obtain ⟨code, coded⟩ := exists_code_of_bitwise operator
  by_cases onBooleans : left.isBoolean && right.isBoolean
  · simp only [StaticType.binary?, if_pos onBooleans] at defined
    rw [Bool.and_eq_true] at onBooleans
    cases defined
    refine ⟨_, ?_, .bitwiseBooleans onBooleans.1 onBooleans.2 coded⟩
    rw [of?, operating?, coded]
    rfl
  · simp only [StaticType.binary?, if_neg onBooleans] at defined
    obtain ⟨kind, promoted, rfl⟩ := Option.map_eq_some_iff.1 defined
    refine ⟨_, ?_, .bitwise promoted coded⟩
    rw [of?, operating?, coded]
    rfl

theorem exists_suits_of_shift {operator : ShiftOperator}
    (defined : StaticType.binary? (.shift operator) left right = some type) :
    ∃ plan, of? (.shift operator) left right type = some plan ∧
      plan.Suits left right (.shift operator) type := by
  obtain ⟨code, coded⟩ := exists_code_of_shift operator
  simp only [StaticType.binary?] at defined
  cases numeric : left.numeric? with
  | none =>
      simp only [numeric] at defined
      cases defined
  | some kind =>
      cases promoted : left.promoteIntegral? right with
      | none =>
          simp only [numeric, promoted] at defined
          cases defined
      | some joint =>
          simp only [numeric, promoted] at defined
          cases defined
          obtain ⟨_, distanceKind, again, distance, integral, whole, _⟩ :=
            StaticType.numeric?_of_promoteIntegral? promoted
          rw [numeric] at again
          cases again
          refine ⟨_, ?_, .shift numeric distance integral whole coded⟩
          rw [of?, numeric, coded]
          rfl

theorem exists_suits_of_equality {operator : EqualityOperator}
    (defined :
      StaticType.binary? (.equality operator) left right = some type) :
    ∃ plan, of? (.equality operator) left right type = some plan ∧
      plan.Suits left right (.equality operator) type := by
  obtain ⟨rule, compared, rfl⟩ := Option.map_eq_some_iff.1 defined
  rw [of?, compared]
  rcases StaticType.cases_of_equality? compared with
    ⟨rfl, kind, promoted⟩ | ⟨rfl, leftBoolean, rightBoolean⟩ |
    ⟨rfl, _⟩ | ⟨rfl, _⟩ | ⟨rfl, _⟩
  · refine ⟨_, ?_, .comparison rfl promoted⟩
    simp only [comparing?, promoted]
    rfl
  · exact ⟨_, rfl, .booleanComparison operator leftBoolean rightBoolean⟩
  · exact ⟨_, rfl, .referenceComparison operator compared⟩
  · exact ⟨_, rfl, .referenceComparison operator compared⟩
  · exact ⟨_, rfl, .referenceComparison operator compared⟩

/-- An operator that is defined on the types of its operands has a plan. -/
theorem exists_suits {operator : BinaryOperator}
    (defined : StaticType.binary? operator left right = some type) :
    ∃ plan, of? operator left right type = some plan ∧
      plan.Suits left right operator type := by
  cases operator with
  | arithmetic operator =>
      exact exists_suits_of_arithmetic defined
  | bitwise operator =>
      exact exists_suits_of_bitwise defined
  | shift operator =>
      exact exists_suits_of_shift defined
  | equality operator =>
      exact exists_suits_of_equality defined
  | logical operator =>
      simp only [StaticType.binary?] at defined
      split at defined
      · rename_i onBooleans
        rw [Bool.and_eq_true] at onBooleans
        cases defined
        exact ⟨_, rfl, .logical operator onBooleans.1 onBooleans.2⟩
      · cases defined
  | relational operator =>
      obtain ⟨kind, promoted, rfl⟩ := Option.map_eq_some_iff.1 defined
      refine ⟨_, ?_, .comparison rfl promoted⟩
      rw [of?, comparing?, promoted]
      rfl
  | member =>
      cases defined

theorem suits_of_of? {plan : BinaryPlan} {operator : BinaryOperator}
    (planned : of? operator left right type = some plan)
    (defined : StaticType.binary? operator left right = some type) :
    plan.Suits left right operator type := by
  obtain ⟨other, plannedOther, suits⟩ := exists_suits defined
  cases planned.symm.trans plannedOther
  exact suits

end BinaryPlan

/-! ## Unary operators -/

/-- The operation of a unary operator on an operand of a type. -/
inductive UnaryOperator.Suits (operand : StaticType) :
    UnaryOperator → List Instruction → StaticType → Prop
  | negate {kind : NumericKind} (numeric : operand.numeric? = some kind) :
      Suits operand .negate [.negate kind] (.number kind)
  | plus {kind : NumericKind} (numeric : operand.numeric? = some kind) :
      Suits operand .plus [] (.number kind)
  | not (isBoolean : operand.isBoolean) :
      Suits operand .not [.not] .boolean
  | complementInt (numeric : operand.numeric? = some .int) :
      Suits operand .complement [.complementInt] (.number .int)
  | complementLong (numeric : operand.numeric? = some .long) :
      Suits operand .complement [.complementLong] (.number .long)

/-- A unary operator that is defined on the type of its operand has an
operation. -/
theorem UnaryOperator.exists_suits {operator : UnaryOperator}
    {operand type : StaticType}
    (defined : StaticType.unary? operator operand = some type) :
    ∃ operation, unaryOperation? operator type = some operation ∧
      operator.Suits operand operation type := by
  cases operator with
  | negate =>
      obtain ⟨kind, numeric, rfl⟩ := Option.map_eq_some_iff.1 defined
      exact ⟨_, rfl, .negate numeric⟩
  | plus =>
      obtain ⟨kind, numeric, rfl⟩ := Option.map_eq_some_iff.1 defined
      exact ⟨_, rfl, .plus numeric⟩
  | not =>
      simp only [StaticType.unary?] at defined
      split at defined
      · rename_i isBoolean
        cases defined
        exact ⟨_, rfl, .not isBoolean⟩
      · cases defined
  | complement =>
      simp only [StaticType.unary?] at defined
      split at defined
      · rename_i kind numeric
        split at defined
        · rename_i integral
          cases defined
          cases kind with
          | int =>
              exact ⟨_, rfl, .complementInt numeric⟩
          | long =>
              exact ⟨_, rfl, .complementLong numeric⟩
          | float | double =>
              cases integral
        · cases defined
      · cases defined

theorem UnaryOperator.suits_of_unaryOperation? {operator : UnaryOperator}
    {operand type : StaticType} {operation : List Instruction}
    (operated : unaryOperation? operator type = some operation)
    (defined : StaticType.unary? operator operand = some type) :
    operator.Suits operand operation type := by
  obtain ⟨other, operatedOther, suits⟩ := UnaryOperator.exists_suits defined
  cases operated.symm.trans operatedOther
  exact suits

end Formula
