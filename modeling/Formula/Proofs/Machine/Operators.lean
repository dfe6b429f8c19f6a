import Formula.Proofs.Lowering.Plans
import Formula.Proofs.Machine.Conversions

/-!
# Operators on the stack machine

The plan of a binary operator computes what the operator makes of its operands,
and so does the code of a unary operator. The machine goes further where an
operand is absent: it tells `null` from any primitive, and takes it for the
string `null` in a concatenation.
-/

namespace Formula

/-! ## Agreement -/

/-- Equality or addition was undefined because an operand is no primitive and
no string. -/
def Error.IsUndefinedOnReference : Error → Prop
  | .unsupported (.binary (.equality _)) (.two left right) =>
      left = .object ∨ right = .object
  | .unsupported (.binary (.arithmetic .add)) (.two left right) =>
      left = .object ∨ right = .object
  | _ => False

/-- A result is a value, unless the operator was undefined on a reference that
the machine takes. -/
def AgreesWith (result : Except Error Constant) (value : Constant) : Prop :=
  result = .ok value ∨
    ∃ error, result = .error error ∧ error.IsUndefinedOnReference

namespace Constant

/-- The texts of two values make the sum of the values, if one of them is a
string. -/
theorem agreesWith_concatenation {left right : Constant}
    (hasReference : left.isReference ∨ right.isReference) :
    AgreesWith (left.apply (.arithmetic .add) right)
      (.string (left.text ++ right.text)) := by
  cases left with
  | string text =>
      exact .inl (apply_string_left text right)
  | null | object =>
      cases right with
      | string text =>
          exact .inl (apply_string_right _ text)
      | number | boolean | null | object =>
          exact .inr ⟨_, rfl, .inl rfl⟩
  | number | boolean =>
      cases right with
      | string text =>
          exact .inl (apply_string_right _ text)
      | null | object =>
          exact .inr ⟨_, rfl, .inr rfl⟩
      | number | boolean =>
          rcases hasReference with isReference | isReference <;>
            cases isReference

/-- References are compared as values are, and `null` with any value. -/
theorem agreesWith_comparison (operator : EqualityOperator)
    {left right : Constant}
    (comparable :
      left = .null ∨ right = .null ∨ (left.isReference ∧ right.isReference)) :
    ∃ same, left.sameReference? right = some same ∧
      AgreesWith (left.apply (.equality operator) right)
        (.boolean (operator.apply same)) := by
  cases left with
  | null =>
      cases right with
      | number | boolean =>
          exact ⟨false, rfl, .inr ⟨_, rfl, .inl rfl⟩⟩
      | string | null | object =>
          exact ⟨_, rfl, .inl rfl⟩
  | number | boolean =>
      rcases comparable with isNull | rfl | ⟨isReference, _⟩
      · cases isNull
      · exact ⟨false, rfl, .inr ⟨_, rfl, .inr rfl⟩⟩
      · cases isReference
  | string | object =>
      rcases comparable with isNull | rfl | ⟨_, isReference⟩
      · cases isNull
      · exact ⟨_, rfl, .inl rfl⟩
      · cases right with
        | number | boolean =>
            cases isReference
        | string | null | object =>
            exact ⟨_, rfl, .inl rfl⟩

theorem apply_comparison {operator : BinaryOperator}
    {comparison : Comparison}
    (compares : operator.comparison? = some comparison)
    (left right : Number) :
    (number left).apply operator (number right) =
      .ok (.boolean (comparison.holds (left.pair right).order?)) := by
  cases operator with
  | equality operator | relational operator =>
      cases compares
      rfl
  | bitwise | shift | arithmetic | logical | member =>
      cases compares

end Constant

/-! ## Codes -/

/-- Arithmetic without a result divides integers. -/
theorem NumberPair.canFail_of_arithmetic? {operator : ArithmeticOperator}
    {pair : NumberPair} {code : UInt8}
    (coded : (BinaryOperator.arithmetic operator).code? = some code)
    (failed : pair.arithmetic? operator = none) :
    (Instruction.operate (.number pair.kind) code).canFail := by
  cases pair with
  | int left right | long left right =>
      cases operator with
      | add | subtract | multiply =>
          cases failed
      | divide | remainder =>
          cases coded
          rfl
  | float left right | double left right =>
      cases failed

/-! ## Plans -/

/-- A plan computes an operator: its conversions prepare the operands, and its
operation agrees with the operator on what they were. -/
def BinaryPlan.Computes (plan : BinaryPlan) (machine : Machine)
    (operator : BinaryOperator) (leftType rightType type : StaticType) :
    Prop :=
  ∃ leftRelated rightRelated : Constant → Constant → Prop,
    machine.Prepares plan.afterLeft leftType leftRelated ∧
      machine.Prepares plan.afterRight rightType rightRelated ∧
        ∀ left first right second stack,
          leftRelated left first → rightRelated right second →
            (machine.run (plan.operation :: plan.afterOperation)
                (second :: first :: stack)).Reaches fun next =>
              ∃ value : Constant, next = value :: stack ∧
                value.Inhabits type ∧
                  AgreesWith (left.apply operator right) value

namespace Machine

variable {machine : Machine}

/-- An instruction that leaves a value which boxing keeps. -/
theorem reaches_boxed (type : StaticType) {instruction : Instruction}
    {value : Constant} {result : Except Error Constant}
    {operands stack : List Constant}
    (stepped : machine.step instruction operands = .running (value :: stack))
    (hasKind : value.HasKind type.kind) (agrees : result = .ok value) :
    (machine.run (instruction :: boxing type) operands).Reaches fun next =>
      ∃ value : Constant, next = value :: stack ∧ value.Inhabits type ∧
        AgreesWith result value := by
  rw [run, stepped]
  exact .inr ⟨_, machine.run_boxing hasKind stack, value, rfl, .inl hasKind,
    .inl agrees⟩

/-- An instruction that leaves a value. -/
theorem reaches_single {instruction : Instruction} {value : Constant}
    {type : StaticType} {result : Except Error Constant}
    {operands stack : List Constant}
    (stepped : machine.step instruction operands = .running (value :: stack))
    (hasKind : value.HasKind type.kind) (agrees : AgreesWith result value) :
    (machine.run [instruction] operands).Reaches fun next =>
      ∃ value : Constant, next = value :: stack ∧ value.Inhabits type ∧
        AgreesWith result value := by
  rw [run_singleton, stepped]
  exact .inr ⟨_, rfl, value, rfl, .inl hasKind, agrees⟩

theorem step_arithmetic (machine : Machine) {operator : ArithmeticOperator}
    {code : UInt8}
    (coded : (BinaryOperator.arithmetic operator).code? = some code)
    {kind : NumericKind} {left right : Number} (leftKind : left.kind = kind)
    (rightKind : right.kind = kind) (stack : List Constant) :
    machine.step (.operate (.number kind) code)
        (.number right :: .number left :: stack) =
      match (left.pair right).arithmetic? operator with
      | some value => .running (.number value :: stack)
      | none => .failed (.operate (.number kind) code) := by
  have stepped : machine.step (.operate (.number kind) code)
      (.number right :: .number left :: stack) =
    operateNumbers kind code left right stack := rfl
  rw [stepped, operateNumbers, BinaryOperator.ofCode?_of_code? coded]
  exact if_pos ⟨leftKind, rightKind⟩

theorem step_bitwise (machine : Machine) {operator : BitwiseOperator}
    {code : UInt8}
    (coded : (BinaryOperator.bitwise operator).code? = some code)
    {kind : NumericKind} {left right : Number} (leftKind : left.kind = kind)
    (rightKind : right.kind = kind) (stack : List Constant) :
    machine.step (.operate (.number kind) code)
        (.number right :: .number left :: stack) =
      .pushing stack (((left.pair right).bitwise? operator).map .number) := by
  have stepped : machine.step (.operate (.number kind) code)
      (.number right :: .number left :: stack) =
    operateNumbers kind code left right stack := rfl
  rw [stepped, operateNumbers, BinaryOperator.ofCode?_of_code? coded]
  exact if_pos ⟨leftKind, rightKind⟩

theorem step_shift (machine : Machine) {operator : ShiftOperator}
    {code : UInt8}
    (coded : (BinaryOperator.shift operator).code? = some code)
    (value : Number) (distance : BitVec 32) (stack : List Constant) :
    machine.step (.operate (.number value.kind) code)
        (.number (.int distance) :: .number value :: stack) =
      .pushing stack ((value.shift? operator (.int distance)).map .number) := by
  have stepped : machine.step (.operate (.number value.kind) code)
      (.number (.int distance) :: .number value :: stack) =
    operateNumbers value.kind code value (.int distance) stack := rfl
  rw [stepped, operateNumbers, BinaryOperator.ofCode?_of_code? coded]
  exact if_pos ⟨rfl, rfl⟩

theorem step_compareNumbers (machine : Machine) (comparison : Comparison)
    {kind : NumericKind} {left right : Number} (leftKind : left.kind = kind)
    (rightKind : right.kind = kind) (stack : List Constant) :
    machine.step (.compareNumbers kind comparison)
        (.number right :: .number left :: stack) =
      .running
        (.boolean (comparison.holds (left.pair right).order?) :: stack) :=
  if_pos ⟨leftKind, rightKind⟩

theorem step_bitwise_booleans (machine : Machine) {operator : BitwiseOperator}
    {code : UInt8}
    (coded : (BinaryOperator.bitwise operator).code? = some code)
    (left right : Bool) (stack : List Constant) :
    machine.step (.operate .boolean code)
        (.boolean right :: .boolean left :: stack) =
      .running (.boolean (operator.applyBool left right) :: stack) := by
  have stepped : machine.step (.operate .boolean code)
      (.boolean right :: .boolean left :: stack) =
    operateBooleans code left right stack := rfl
  rw [stepped, operateBooleans, BinaryOperator.ofCode?_of_code? coded]

end Machine

namespace BinaryPlan

variable {machine : Machine} {leftType rightType type : StaticType}

theorem computes_concatenation
    (hasString : leftType.isString ∨ rightType.isString) :
    Computes
      ⟨stringifying leftType, stringifying rightType, .concatenate, []⟩
      machine (.arithmetic .add) leftType rightType .string := by
  refine ⟨_, _, machine.prepares_stringifying leftType,
    machine.prepares_stringifying rightType, ?_⟩
  rintro left _ right _ stack ⟨leftInhabits, rfl⟩ ⟨rightInhabits, rfl⟩
  refine Machine.reaches_single rfl trivial
    (Constant.agreesWith_concatenation ?_)
  rcases hasString with isString | isString
  · have isKind := StaticType.kind_of_isString isString
    exact .inl (leftInhabits.isReference (by simp [StaticType.primitive?,
      isKind]))
  · have isKind := StaticType.kind_of_isString isString
    exact .inr (rightInhabits.isReference (by simp [StaticType.primitive?,
      isKind]))

theorem computes_arithmetic {operator : ArithmeticOperator} {code : UInt8}
    {kind : NumericKind} (promoted : leftType.promote? rightType = some kind)
    (coded : (BinaryOperator.arithmetic operator).code? = some code) :
    Computes
      ⟨coercion leftType kind, coercion rightType kind,
        .operate (.number kind) code,
        boxing (leftType.boxedIfBoth rightType (.number kind))⟩
      machine (.arithmetic operator) leftType rightType
      (leftType.boxedIfBoth rightType (.number kind)) := by
  obtain ⟨leftKind, rightKind, leftNumeric, rightNumeric, rfl⟩ :=
    StaticType.numeric?_of_promote? promoted
  have leftWider := NumericKind.rank_le_promote_left leftKind rightKind
  have rightWider := NumericKind.rank_le_promote_right leftKind rightKind
  refine ⟨_, _, machine.prepares_coercion leftNumeric leftWider,
    machine.prepares_coercion rightNumeric rightWider, ?_⟩
  rintro _ _ _ _ stack ⟨left, rfl, rfl, rfl⟩ ⟨right, rfl, rfl, rfl⟩
  have stepped := machine.step_arithmetic coded
    (Number.kind_widen leftWider) (Number.kind_widen rightWider) stack
  have applied := Constant.apply_arithmetic operator left right
  rw [Number.pair_widen rfl] at stepped
  cases computed : (left.pair right).arithmetic? operator with
  | none =>
      rw [computed] at stepped
      have fails := NumberPair.canFail_of_arithmetic? coded computed
      rw [Number.kind_pair] at fails
      refine .inl ⟨_, ?_, fails⟩
      rw [Machine.run, stepped]
      rfl
  | some value =>
      rw [computed] at stepped applied
      have hasKind := NumberPair.kind_of_arithmetic? computed
      rw [Number.kind_pair] at hasKind
      exact Machine.reaches_boxed (leftType.boxedIfBoth rightType _) stepped
        hasKind applied

theorem computes_bitwise {operator : BitwiseOperator} {code : UInt8}
    {kind : NumericKind}
    (promoted : leftType.promoteIntegral? rightType = some kind)
    (coded : (BinaryOperator.bitwise operator).code? = some code) :
    Computes
      ⟨coercion leftType kind, coercion rightType kind,
        .operate (.number kind) code,
        boxing (leftType.boxedIfBoth rightType (.number kind))⟩
      machine (.bitwise operator) leftType rightType
      (leftType.boxedIfBoth rightType (.number kind)) := by
  obtain ⟨leftKind, rightKind, leftNumeric, rightNumeric, leftIntegral,
    rightIntegral, rfl⟩ := StaticType.numeric?_of_promoteIntegral? promoted
  have leftWider := NumericKind.rank_le_promote_left leftKind rightKind
  have rightWider := NumericKind.rank_le_promote_right leftKind rightKind
  refine ⟨_, _, machine.prepares_coercion leftNumeric leftWider,
    machine.prepares_coercion rightNumeric rightWider, ?_⟩
  rintro _ _ _ _ stack ⟨left, rfl, rfl, rfl⟩ ⟨right, rfl, rfl, rfl⟩
  have stepped := machine.step_bitwise coded
    (Number.kind_widen leftWider) (Number.kind_widen rightWider) stack
  have integral : (left.pair right).kind.isIntegral := by
    rw [Number.kind_pair]
    exact NumericKind.isIntegral_promote leftIntegral rightIntegral
  obtain ⟨value, computed, hasKind⟩ :=
    NumberPair.exists_of_bitwise? integral operator
  rw [Number.pair_widen rfl, computed] at stepped
  rw [Number.kind_pair] at hasKind
  exact Machine.reaches_boxed (leftType.boxedIfBoth rightType _) stepped
    hasKind (Constant.apply_bitwise operator computed)

theorem computes_bitwise_booleans {operator : BitwiseOperator}
    {code : UInt8} (leftBoolean : leftType.isBoolean)
    (rightBoolean : rightType.isBoolean)
    (coded : (BinaryOperator.bitwise operator).code? = some code) :
    Computes
      ⟨unboxing leftType, unboxing rightType, .operate .boolean code,
        boxing (leftType.boxedIfBoth rightType .boolean)⟩
      machine (.bitwise operator) leftType rightType
      (leftType.boxedIfBoth rightType .boolean) := by
  refine ⟨_, _,
    machine.prepares_unboxing (StaticType.kind_of_isBoolean leftBoolean),
    machine.prepares_unboxing (StaticType.kind_of_isBoolean rightBoolean), ?_⟩
  rintro _ _ _ _ stack ⟨rfl, leftKind⟩ ⟨rfl, rightKind⟩
  obtain ⟨left, rfl⟩ := leftKind.exists_boolean
  obtain ⟨right, rfl⟩ := rightKind.exists_boolean
  exact Machine.reaches_boxed (leftType.boxedIfBoth rightType _)
    (machine.step_bitwise_booleans coded left right stack) trivial rfl

theorem computes_shift {operator : ShiftOperator} {code : UInt8}
    {kind distanceKind : NumericKind} (numeric : leftType.numeric? = some kind)
    (distance : rightType.numeric? = some distanceKind)
    (integral : kind.isIntegral) (whole : distanceKind.isIntegral)
    (coded : (BinaryOperator.shift operator).code? = some code) :
    Computes
      ⟨unboxing leftType, Machine.distancing rightType,
        .operate (.number kind) code, []⟩
      machine (.shift operator) leftType rightType (.number kind) := by
  refine ⟨_, _,
    machine.prepares_unboxing (StaticType.kind_of_numeric? numeric),
    machine.prepares_distancing distance whole, ?_⟩
  rintro _ _ _ _ stack ⟨rfl, leftKind⟩ ⟨right, places, rfl, rfl, rfl, alike⟩
  obtain ⟨left, rfl, rfl⟩ := leftKind.exists_number
  obtain ⟨value, computed, hasKind⟩ :=
    Number.exists_of_shift? integral whole operator
  have stepped := machine.step_shift coded left places stack
  rw [alike, computed] at stepped
  exact Machine.reaches_single stepped hasKind
    (.inl (Constant.apply_shift operator computed))

theorem computes_logical (operator : LogicalOperator)
    (leftBoolean : leftType.isBoolean) (rightBoolean : rightType.isBoolean) :
    Computes
      ⟨unboxing leftType, unboxing rightType, .logical operator, []⟩
      machine (.logical operator) leftType rightType .boolean := by
  refine ⟨_, _,
    machine.prepares_unboxing (StaticType.kind_of_isBoolean leftBoolean),
    machine.prepares_unboxing (StaticType.kind_of_isBoolean rightBoolean), ?_⟩
  rintro _ _ _ _ stack ⟨rfl, leftKind⟩ ⟨rfl, rightKind⟩
  obtain ⟨left, rfl⟩ := leftKind.exists_boolean
  obtain ⟨right, rfl⟩ := rightKind.exists_boolean
  exact Machine.reaches_single rfl trivial (.inl rfl)

theorem computes_boolean_comparison (operator : EqualityOperator)
    (leftBoolean : leftType.isBoolean) (rightBoolean : rightType.isBoolean) :
    Computes
      ⟨unboxing leftType, unboxing rightType, .compareBooleans operator, []⟩
      machine (.equality operator) leftType rightType .boolean := by
  refine ⟨_, _,
    machine.prepares_unboxing (StaticType.kind_of_isBoolean leftBoolean),
    machine.prepares_unboxing (StaticType.kind_of_isBoolean rightBoolean), ?_⟩
  rintro _ _ _ _ stack ⟨rfl, leftKind⟩ ⟨rfl, rightKind⟩
  obtain ⟨left, rfl⟩ := leftKind.exists_boolean
  obtain ⟨right, rfl⟩ := rightKind.exists_boolean
  exact Machine.reaches_single rfl trivial (.inl rfl)

theorem computes_comparison {operator : BinaryOperator}
    {comparison : Comparison}
    (compares : operator.comparison? = some comparison)
    {kind : NumericKind} (promoted : leftType.promote? rightType = some kind) :
    Computes
      ⟨coercion leftType kind, coercion rightType kind,
        .compareNumbers kind comparison, []⟩
      machine operator leftType rightType .boolean := by
  obtain ⟨leftKind, rightKind, leftNumeric, rightNumeric, rfl⟩ :=
    StaticType.numeric?_of_promote? promoted
  have leftWider := NumericKind.rank_le_promote_left leftKind rightKind
  have rightWider := NumericKind.rank_le_promote_right leftKind rightKind
  refine ⟨_, _, machine.prepares_coercion leftNumeric leftWider,
    machine.prepares_coercion rightNumeric rightWider, ?_⟩
  rintro _ _ _ _ stack ⟨left, rfl, rfl, rfl⟩ ⟨right, rfl, rfl, rfl⟩
  have stepped := machine.step_compareNumbers comparison
    (Number.kind_widen leftWider) (Number.kind_widen rightWider) stack
  rw [Number.pair_widen rfl] at stepped
  refine Machine.reaches_single stepped trivial (.inl ?_)
  exact Constant.apply_comparison compares left right

theorem computes_reference_comparison (operator : EqualityOperator)
    (compared : leftType.equality? rightType = some .reference) :
    Computes ⟨[], [], .compareReferences operator, []⟩ machine
      (.equality operator) leftType rightType .boolean := by
  refine ⟨_, _, machine.prepares_nil leftType,
    machine.prepares_nil rightType, ?_⟩
  rintro _ left _ right stack ⟨rfl, leftInhabits⟩ ⟨rfl, rightInhabits⟩
  have comparable : left = .null ∨ right = .null ∨
      (left.isReference ∧ right.isReference) := by
    rcases StaticType.cases_of_equality? compared with
      ⟨isNumeric, _⟩ | ⟨isBoolean, _⟩ | ⟨_, isNull, _⟩ | ⟨_, isNull, _⟩ |
      ⟨_, leftPlain, rightPlain⟩
    · cases isNumeric
    · cases isBoolean
    · exact .inl (leftInhabits.eq_null isNull)
    · exact .inr (.inl (rightInhabits.eq_null isNull))
    · exact .inr (.inr
        ⟨leftInhabits.isReference
          (StaticType.primitive?_eq_none_of_isTextOrObject leftPlain),
        rightInhabits.isReference
          (StaticType.primitive?_eq_none_of_isTextOrObject rightPlain)⟩)
  obtain ⟨same, found, agrees⟩ :=
    Constant.agreesWith_comparison operator comparable
  have stepped :
      machine.step (.compareReferences operator) (right :: left :: stack) =
        .pushing stack ((left.sameReference? right).map fun same =>
          .boolean (operator.apply same)) :=
    rfl
  rw [found] at stepped
  exact Machine.reaches_single stepped trivial agrees

/-- The plan of an operator computes it. -/
theorem computes_of_of? {plan : BinaryPlan} {operator : BinaryOperator}
    (planned : of? operator leftType rightType type = some plan)
    (defined : StaticType.binary? operator leftType rightType = some type) :
    plan.Computes machine operator leftType rightType type := by
  cases suits_of_of? planned defined with
  | concatenation hasString =>
      exact computes_concatenation hasString
  | arithmetic promoted coded =>
      exact computes_arithmetic promoted coded
  | bitwise promoted coded =>
      exact computes_bitwise promoted coded
  | bitwiseBooleans leftBoolean rightBoolean coded =>
      exact computes_bitwise_booleans leftBoolean rightBoolean coded
  | shift numeric distance integral whole coded =>
      exact computes_shift numeric distance integral whole coded
  | logical operator leftBoolean rightBoolean =>
      exact computes_logical operator leftBoolean rightBoolean
  | booleanComparison operator leftBoolean rightBoolean =>
      exact computes_boolean_comparison operator leftBoolean rightBoolean
  | comparison compares promoted =>
      exact computes_comparison compares promoted
  | referenceComparison operator compared =>
      exact computes_reference_comparison operator compared

end BinaryPlan

/-! ## Unary operators and members -/

namespace Machine

variable {machine : Machine}

/-- The code of a unary operator leaves what the operator makes of its
operand. -/
theorem reaches_unary {operator : UnaryOperator} {value : Constant}
    {operandType type : StaticType} {operation : List Instruction}
    (defined : StaticType.unary? operator operandType = some type)
    (operated : unaryOperation? operator type = some operation)
    (inhabits : value.Inhabits operandType) (stack : List Constant) :
    (machine.run (unboxing operandType ++ operation)
        (value :: stack)).Reaches fun next =>
      ∃ result : Constant, next = result :: stack ∧
        result.HasKind type.kind ∧ value.applyUnary operator = .ok result := by
  cases UnaryOperator.suits_of_unaryOperation? operated defined with
  | negate numeric =>
      refine machine.reaches_append (machine.prepares_unboxing
        (StaticType.kind_of_numeric? numeric) value inhabits stack) ?_
      rintro _ ⟨_, ⟨rfl, hasKind⟩, rfl⟩
      obtain ⟨number, rfl, rfl⟩ := hasKind.exists_number
      have stepped :
          machine.step (.negate number.kind) (.number number :: stack) =
            .running (.number number.negate :: stack) := if_pos rfl
      rw [run_singleton, stepped]
      exact .inr ⟨_, rfl, _, rfl, number.kind_negate, rfl⟩
  | plus numeric =>
      rw [List.append_nil]
      refine (machine.prepares_unboxing
        (StaticType.kind_of_numeric? numeric) value inhabits stack).weaken ?_
      rintro _ ⟨_, ⟨rfl, hasKind⟩, rfl⟩
      obtain ⟨number, rfl, rfl⟩ := hasKind.exists_number
      exact ⟨_, rfl, hasKind, rfl⟩
  | not isBoolean =>
      refine machine.reaches_append (machine.prepares_unboxing
        (StaticType.kind_of_isBoolean isBoolean) value inhabits stack) ?_
      rintro _ ⟨_, ⟨rfl, hasKind⟩, rfl⟩
      obtain ⟨truth, rfl⟩ := hasKind.exists_boolean
      exact .inr ⟨_, rfl, _, rfl, trivial, rfl⟩
  | complementInt numeric =>
      refine machine.reaches_append (machine.prepares_unboxing
        (StaticType.kind_of_numeric? numeric) value inhabits stack) ?_
      rintro _ ⟨_, ⟨rfl, hasKind⟩, rfl⟩
      obtain ⟨number, rfl, kindEq⟩ := hasKind.exists_number
      cases number with
      | int =>
          exact .inr ⟨_, rfl, _, rfl, rfl, rfl⟩
      | long | float | double =>
          cases kindEq
  | complementLong numeric =>
      refine machine.reaches_append (machine.prepares_unboxing
        (StaticType.kind_of_numeric? numeric) value inhabits stack) ?_
      rintro _ ⟨_, ⟨rfl, hasKind⟩, rfl⟩
      obtain ⟨number, rfl, kindEq⟩ := hasKind.exists_number
      cases number with
      | long =>
          exact .inr ⟨_, rfl, _, rfl, rfl, rfl⟩
      | int | float | double =>
          cases kindEq

/-- The selection of a member leaves its value, or fails. -/
theorem reaches_getMember {index : Address} {name : String}
    (named : machine.names[index.val]? = some name) {owner : Constant}
    {className : String} {ownerType type : StaticType}
    (isObject : ownerType.kind = .object className)
    (inhabits : owner.Inhabits ownerType)
    (held : ∀ (host : HostObject) (value : Constant),
      host.className = className → machine.members host name = some value →
        value.Inhabits type) (stack : List Constant) :
    (machine.run [.getMember index] (owner :: stack)).Reaches fun next =>
      ∃ value : Constant, next = value :: stack ∧ value.Inhabits type ∧
        owner.select machine.members name = .ok value := by
  rw [run_singleton]
  rcases inhabits with hasKind | ⟨_, rfl⟩
  · rw [isObject] at hasKind
    obtain ⟨host, rfl, ofClass⟩ := hasKind.exists_object
    have stepped :
        machine.step (.getMember index) (.object host :: stack) =
          machine.select index (.object host) stack := rfl
    cases found : machine.members host name with
    | none =>
        simp only [select, named, found] at stepped
        exact .inl ⟨_, stepped, rfl⟩
    | some value =>
        simp only [select, named, found] at stepped
        refine .inr ⟨_, stepped, value, rfl, held host value ofClass found, ?_⟩
        simp only [Constant.select, found]
  · have stepped : machine.step (.getMember index) (.null :: stack) =
      machine.select index .null stack := rfl
    simp only [select, named] at stepped
    exact .inl ⟨_, stepped, rfl⟩

end Machine

end Formula
