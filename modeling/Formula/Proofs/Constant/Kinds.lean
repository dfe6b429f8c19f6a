import Formula.Constant.Apply
import Formula.Typing

/-!
# Values of a kind

A value has the kind of a type if its variant is the one that the type names
and, for an object, if it is of the class. Operators that are defined on the
kinds of their operands give results of the kind that the types foretell.
-/

namespace Formula

/-! ## Numbers -/

theorem NumericKind.isIntegral_promote {left right : NumericKind}
    (leftIntegral : left.isIntegral) (rightIntegral : right.isIntegral) :
    (left.promote right).isIntegral := by
  unfold promote
  split <;> assumption

namespace NumberPair

def kind : NumberPair → NumericKind
  | .int _ _ => .int
  | .long _ _ => .long
  | .float _ _ => .float
  | .double _ _ => .double

theorem kind_of_arithmetic? {operator : ArithmeticOperator}
    {pair : NumberPair} {value : Number}
    (defined : pair.arithmetic? operator = some value) :
    value.kind = pair.kind := by
  cases pair with
  | int left right =>
      obtain ⟨_, _, rfl⟩ := Option.map_eq_some_iff.1 defined
      rfl
  | long left right =>
      obtain ⟨_, _, rfl⟩ := Option.map_eq_some_iff.1 defined
      rfl
  | float left right =>
      cases defined
      rfl
  | double left right =>
      cases defined
      rfl

theorem exists_of_bitwise? {pair : NumberPair}
    (integral : pair.kind.isIntegral) (operator : BitwiseOperator) :
    ∃ value, pair.bitwise? operator = some value ∧
      value.kind = pair.kind := by
  cases pair with
  | int left right =>
      exact ⟨_, rfl, rfl⟩
  | long left right =>
      exact ⟨_, rfl, rfl⟩
  | float left right =>
      cases integral
  | double left right =>
      cases integral

end NumberPair

namespace Number

theorem kind_pair (left right : Number) :
    (left.pair right).kind = left.kind.promote right.kind := by
  cases left <;> cases right <;> rfl

theorem exists_of_shift? {value distance : Number}
    (integral : value.kind.isIntegral) (whole : distance.kind.isIntegral)
    (operator : ShiftOperator) :
    ∃ shifted, value.shift? operator distance = some shifted ∧
      shifted.kind = value.kind := by
  cases value with
  | int value =>
      cases distance with
      | int distance =>
          exact ⟨_, rfl, rfl⟩
      | long distance =>
          exact ⟨_, rfl, rfl⟩
      | float distance =>
          cases whole
      | double distance =>
          cases whole
  | long value =>
      cases distance with
      | int distance =>
          exact ⟨_, rfl, rfl⟩
      | long distance =>
          exact ⟨_, rfl, rfl⟩
      | float distance =>
          cases whole
      | double distance =>
          cases whole
  | float value =>
      cases integral
  | double value =>
      cases integral

@[simp] theorem kind_negate (value : Number) :
    value.negate.kind = value.kind := by
  cases value <;> rfl

theorem exists_of_complement? {value : Number}
    (integral : value.kind.isIntegral) :
    ∃ inverted, value.complement? = some inverted ∧
      inverted.kind = value.kind := by
  cases value with
  | int value =>
      exact ⟨_, rfl, rfl⟩
  | long value =>
      exact ⟨_, rfl, rfl⟩
  | float value =>
      cases integral
  | double value =>
      cases integral

end Number

/-! ## Kinds of values -/

namespace Constant

/-- The variant of a value is the one that a type names; an object is of the
class that the type names. -/
def HasKind : Constant → TypeKind → Prop
  | .number value, .primitive (.number kind) => value.kind = kind
  | .boolean _, .primitive .boolean => True
  | .string _, .string => True
  | .object host, .object className => host.className = className
  | .null, .null => True
  | _, _ => False

theorem hasKind_ofConstant (value : Constant) :
    value.HasKind (StaticType.ofConstant value).kind := by
  cases value <;> simp [StaticType.ofConstant, StaticType.number,
    StaticType.boolean, StaticType.string, StaticType.null, HasKind]

theorem HasKind.exists_number {value : Constant} {kind : NumericKind}
    (hasKind : value.HasKind (.primitive (.number kind))) :
    ∃ number, value = .number number ∧ number.kind = kind := by
  cases value with
  | number number =>
      exact ⟨number, rfl, hasKind⟩
  | boolean | string | null | object =>
      cases hasKind

theorem HasKind.exists_boolean {value : Constant}
    (hasKind : value.HasKind (.primitive .boolean)) :
    ∃ truth, value = .boolean truth := by
  cases value with
  | boolean truth =>
      exact ⟨truth, rfl⟩
  | number | string | null | object =>
      cases hasKind

theorem HasKind.exists_string {value : Constant}
    (hasKind : value.HasKind .string) : ∃ text, value = .string text := by
  cases value with
  | string text =>
      exact ⟨text, rfl⟩
  | number | boolean | null | object =>
      cases hasKind

theorem HasKind.exists_object {value : Constant} {className : String}
    (hasKind : value.HasKind (.object className)) :
    ∃ host, value = .object host ∧ host.className = className := by
  cases value with
  | object host =>
      exact ⟨host, rfl, hasKind⟩
  | number | boolean | string | null =>
      cases hasKind

theorem HasKind.eq_null {value : Constant} (hasKind : value.HasKind .null) :
    value = .null := by
  cases value with
  | null =>
      rfl
  | number | boolean | string | object =>
      cases hasKind

/-- The kind that evaluation reports for a value is the one of its type. -/
theorem HasKind.kind_eq_runtimeKind {value : Constant} {type : StaticType}
    (hasKind : value.HasKind type.kind) : value.kind = type.runtimeKind := by
  obtain ⟨kind, nullable⟩ := type
  cases kind with
  | primitive kind =>
      cases kind with
      | number kind =>
          obtain ⟨number, rfl, rfl⟩ := hasKind.exists_number
          rfl
      | boolean =>
          obtain ⟨truth, rfl⟩ := hasKind.exists_boolean
          rfl
  | string =>
      obtain ⟨text, rfl⟩ := hasKind.exists_string
      rfl
  | object className =>
      obtain ⟨host, rfl, _⟩ := hasKind.exists_object
      rfl
  | null =>
      rw [hasKind.eq_null]
      rfl

end Constant

/-! ## Types of operands -/

namespace StaticType

theorem kind_of_numeric? {type : StaticType} {kind : NumericKind}
    (numeric : type.numeric? = some kind) :
    type.kind = .primitive (.number kind) := by
  unfold numeric? at numeric
  split at numeric
  · cases numeric
    assumption
  · cases numeric

theorem numeric?_of_promote? {left right : StaticType} {kind : NumericKind}
    (promoted : left.promote? right = some kind) :
    ∃ leftKind rightKind, left.numeric? = some leftKind ∧
      right.numeric? = some rightKind ∧
        leftKind.promote rightKind = kind := by
  unfold promote? at promoted
  split at promoted
  · cases promoted
    exact ⟨_, _, by assumption, by assumption, rfl⟩
  · cases promoted

theorem numeric?_of_promoteIntegral? {left right : StaticType}
    {kind : NumericKind}
    (promoted : left.promoteIntegral? right = some kind) :
    ∃ leftKind rightKind, left.numeric? = some leftKind ∧
      right.numeric? = some rightKind ∧
        leftKind.isIntegral ∧ rightKind.isIntegral ∧
          leftKind.promote rightKind = kind := by
  unfold promoteIntegral? at promoted
  split at promoted
  · split at promoted
    · rename_i integral
      cases promoted
      simp only [Bool.and_eq_true] at integral
      exact ⟨_, _, by assumption, by assumption, integral.1, integral.2, rfl⟩
    · cases promoted
  · cases promoted

theorem kind_of_isBoolean {type : StaticType} (isBoolean : type.isBoolean) :
    type.kind = .primitive .boolean := by
  simpa [StaticType.isBoolean] using isBoolean

theorem primitive?_eq_none_of_isTextOrObject {type : StaticType}
    (isTextOrObject : type.isTextOrObject) : type.primitive? = none := by
  obtain ⟨kind, nullable⟩ := type
  cases kind with
  | string | object className =>
      rfl
  | primitive | null =>
      cases isTextOrObject

/-- A type is a wrapper with `null`, so that equality is defined on the types
but not on a primitive value and `null`. -/
def ComparesWrapperWithNull (left right : StaticType) : Prop :=
  (left.isWrapper ∧ right.kind = .null) ∨ (left.kind = .null ∧ right.isWrapper)

theorem primitive?_eq_none_of_isReference {type : StaticType}
    (isReference : type.isReference) (notWrapper : ¬ type.isWrapper) :
    type.primitive? = none := by
  cases primitive : type.primitive? with
  | none =>
      rfl
  | some kind =>
      simp [StaticType.isReference, isWrapper, primitive]
        at isReference notWrapper
      simp [isReference] at notWrapper

theorem kind_of_isString {type : StaticType} (isString : type.isString) :
    type.kind = .string := by
  simpa [StaticType.isString] using isString

/-- The operands of an equality are two numbers, two truth values, or two
references. -/
theorem cases_of_equality? {left right : StaticType} {rule : EqualityRule}
    (compared : left.equality? right = some rule) :
    (rule = .numeric ∧ ∃ kind, left.promote? right = some kind) ∨
      (rule = .boolean ∧ left.isBoolean ∧ right.isBoolean) ∨
      (rule = .reference ∧ left.kind = .null ∧ right.isReference) ∨
      (rule = .reference ∧ right.kind = .null ∧ left.isReference) ∨
      (rule = .reference ∧ left.isTextOrObject ∧ right.isTextOrObject) := by
  unfold equality? at compared
  split at compared
  · rename_i numeric
    cases compared
    exact .inl ⟨rfl, Option.isSome_iff_exists.1 numeric⟩
  split at compared
  · rename_i boolean
    cases compared
    simp only [Bool.and_eq_true] at boolean
    exact .inr (.inl ⟨rfl, boolean⟩)
  split at compared
  · rename_i leftNull
    cases compared
    exact .inr (.inr (.inl ⟨rfl, leftNull⟩))
  split at compared
  · rename_i rightNull
    cases compared
    exact .inr (.inr (.inr (.inl ⟨rfl, rightNull⟩)))
  split at compared
  · rename_i plain
    cases compared
    simp only [Bool.and_eq_true] at plain
    exact .inr (.inr (.inr (.inr ⟨rfl, plain⟩)))
  · cases compared

theorem isReference_of_primitive?_eq_none {type : StaticType}
    (notPrimitive : type.primitive? = none) : type.isReference := by
  simp [isReference, notPrimitive]

theorem isReference_of_null {type : StaticType} (isNull : type.kind = .null) :
    type.isReference :=
  isReference_of_primitive?_eq_none (by simp [primitive?, isNull])

theorem isReference_of_isTextOrObject {type : StaticType}
    (isTextOrObject : type.isTextOrObject) : type.isReference :=
  isReference_of_primitive?_eq_none
    (primitive?_eq_none_of_isTextOrObject isTextOrObject)

/-- What is compared by reference is held by reference. -/
theorem isReference_of_equality? {left right : StaticType}
    (compared : left.equality? right = some .reference) :
    left.isReference ∧ right.isReference := by
  rcases cases_of_equality? compared with
    ⟨isNumeric, _⟩ | ⟨isBoolean, _⟩ | ⟨_, isNull, isReference⟩ |
    ⟨_, isNull, isReference⟩ | ⟨_, leftPlain, rightPlain⟩
  · cases isNumeric
  · cases isBoolean
  · exact ⟨isReference_of_null isNull, isReference⟩
  · exact ⟨isReference, isReference_of_null isNull⟩
  · exact ⟨isReference_of_isTextOrObject leftPlain,
      isReference_of_isTextOrObject rightPlain⟩

end StaticType

/-! ## Operators on values -/

namespace Constant

theorem apply_string_left (text : String) (right : Constant) :
    (string text).apply (.arithmetic .add) right =
      .ok (.string (text ++ right.text)) := by
  cases right <;> rfl

theorem apply_string_right (left : Constant) (text : String) :
    left.apply (.arithmetic .add) (string text) =
      .ok (.string (left.text ++ text)) := by
  cases left <;> rfl

theorem apply_arithmetic (operator : ArithmeticOperator)
    (left right : Number) :
    (number left).apply (.arithmetic operator) (number right) =
      match (left.pair right).arithmetic? operator with
      | some value => .ok (.number value)
      | none => .error .divisionByZero := by
  cases operator <;> simp only [apply, applyDefined?] <;> split <;> simp [*]

theorem apply_bitwise (operator : BitwiseOperator) {left right value : Number}
    (defined : (left.pair right).bitwise? operator = some value) :
    (number left).apply (.bitwise operator) (number right) =
      .ok (.number value) := by
  simp [apply, applyDefined?, defined]

theorem apply_shift (operator : ShiftOperator) {left right value : Number}
    (defined : left.shift? operator right = some value) :
    (number left).apply (.shift operator) (number right) =
      .ok (.number value) := by
  simp [apply, applyDefined?, defined]

theorem apply_equality (operator : EqualityOperator) {left right : Constant}
    {same : Bool} (compared : left.equals? right = some same) :
    left.apply (.equality operator) right =
      .ok (.boolean (operator.apply same)) := by
  simp [apply, applyDefined?, compared]

/-- Whether a value is no primitive, so that any other such value can be
compared with it. -/
def isReference : Constant → Bool
  | .number _ | .boolean _ => false
  | .string _ | .null | .object _ => true

theorem HasKind.isReference_of_primitive? {value : Constant}
    {type : StaticType} (hasKind : value.HasKind type.kind)
    (notPrimitive : type.primitive? = none) : value.isReference := by
  obtain ⟨kind, nullable⟩ := type
  cases kind with
  | primitive kind =>
      cases notPrimitive
  | string =>
      obtain ⟨text, rfl⟩ := hasKind.exists_string
      rfl
  | object className =>
      obtain ⟨host, rfl, _⟩ := hasKind.exists_object
      rfl
  | null =>
      rw [hasKind.eq_null]
      rfl

theorem exists_booleans_of_isBoolean {left right : Constant}
    {leftType rightType : StaticType} (leftBoolean : leftType.isBoolean)
    (rightBoolean : rightType.isBoolean)
    (leftKind : left.HasKind leftType.kind)
    (rightKind : right.HasKind rightType.kind) :
    ∃ first second, left = .boolean first ∧ right = .boolean second := by
  rw [StaticType.kind_of_isBoolean leftBoolean] at leftKind
  rw [StaticType.kind_of_isBoolean rightBoolean] at rightKind
  obtain ⟨first, rfl⟩ := leftKind.exists_boolean
  obtain ⟨second, rfl⟩ := rightKind.exists_boolean
  exact ⟨first, second, rfl, rfl⟩

theorem exists_numbers_of_promote? {left right : Constant}
    {leftType rightType : StaticType} {kind : NumericKind}
    (promoted : leftType.promote? rightType = some kind)
    (leftKind : left.HasKind leftType.kind)
    (rightKind : right.HasKind rightType.kind) :
    ∃ first second, left = .number first ∧ right = .number second ∧
      first.kind.promote second.kind = kind := by
  obtain ⟨_, _, leftNumeric, rightNumeric, promotion⟩ :=
    StaticType.numeric?_of_promote? promoted
  rw [StaticType.kind_of_numeric? leftNumeric] at leftKind
  rw [StaticType.kind_of_numeric? rightNumeric] at rightKind
  obtain ⟨first, rfl, rfl⟩ := leftKind.exists_number
  obtain ⟨second, rfl, rfl⟩ := rightKind.exists_number
  exact ⟨first, second, rfl, rfl, promotion⟩

theorem exists_integers_of_promoteIntegral? {left right : Constant}
    {leftType rightType : StaticType} {kind : NumericKind}
    (promoted : leftType.promoteIntegral? rightType = some kind)
    (leftKind : left.HasKind leftType.kind)
    (rightKind : right.HasKind rightType.kind) :
    ∃ first second, left = .number first ∧ right = .number second ∧
      first.kind.isIntegral ∧ second.kind.isIntegral ∧
        leftType.numeric? = some first.kind ∧
          first.kind.promote second.kind = kind := by
  obtain ⟨_, _, leftNumeric, rightNumeric, leftIntegral, rightIntegral,
    promotion⟩ := StaticType.numeric?_of_promoteIntegral? promoted
  rw [StaticType.kind_of_numeric? leftNumeric] at leftKind
  rw [StaticType.kind_of_numeric? rightNumeric] at rightKind
  obtain ⟨first, rfl, rfl⟩ := leftKind.exists_number
  obtain ⟨second, rfl, rfl⟩ := rightKind.exists_number
  exact ⟨first, second, rfl, rfl, leftIntegral, rightIntegral, leftNumeric,
    promotion⟩

theorem exists_of_equals? {left right : Constant}
    (leftReference : left.isReference) (rightReference : right.isReference) :
    ∃ same, left.equals? right = some same := by
  cases left with
  | number | boolean =>
      cases leftReference
  | string | null | object =>
      cases right with
      | number | boolean =>
          cases rightReference
      | string | null | object =>
          exact ⟨_, rfl⟩

/-- A value has the kind of a type, or is `null` where a type of strings or
objects admits it. What evaluation finds in a wrapper is its primitive, so that
a wrapper is never absent. -/
def OccursAs (value : Constant) (type : StaticType) : Prop :=
  value.HasKind type.kind ∨
    (value = .null ∧ type.nullable ∧ type.isTextOrObject)

namespace OccursAs

variable {value : Constant} {type : StaticType}

theorem hasKind_of_primitive {kind : PrimitiveKind}
    (occurs : value.OccursAs type) (isPrimitive : type.kind = .primitive kind) :
    value.HasKind type.kind := by
  rcases occurs with hasKind | ⟨_, _, isTextOrObject⟩
  · exact hasKind
  · simp [StaticType.isTextOrObject, isPrimitive] at isTextOrObject

theorem isReference_of_primitive? (occurs : value.OccursAs type)
    (notPrimitive : type.primitive? = none) : value.isReference := by
  rcases occurs with hasKind | ⟨rfl, _⟩
  · exact hasKind.isReference_of_primitive? notPrimitive
  · rfl

theorem eq_null (occurs : value.OccursAs type) (isNull : type.kind = .null) :
    value = .null := by
  rcases occurs with hasKind | ⟨absent, _⟩
  · rw [isNull] at hasKind
    exact hasKind.eq_null
  · exact absent

end OccursAs

/-- Values of two types can be compared if the types can, unless the types are
a wrapper and `null`. -/
theorem exists_of_equality? {left right : Constant}
    {leftType rightType : StaticType} {rule : EqualityRule}
    (compared : leftType.equality? rightType = some rule)
    (distinct : ¬ leftType.ComparesWrapperWithNull rightType)
    (leftOccurs : left.OccursAs leftType)
    (rightOccurs : right.OccursAs rightType) :
    ∃ same, left.equals? right = some same := by
  rcases StaticType.cases_of_equality? compared with
    ⟨_, kind, promoted⟩ | ⟨_, leftBoolean, rightBoolean⟩ |
    ⟨_, leftNull, rightReference⟩ | ⟨_, rightNull, leftReference⟩ |
    ⟨_, leftPlain, rightPlain⟩
  · obtain ⟨_, _, leftNumeric, rightNumeric, _⟩ :=
      StaticType.numeric?_of_promote? promoted
    have leftKind := leftOccurs.hasKind_of_primitive
      (StaticType.kind_of_numeric? leftNumeric)
    have rightKind := rightOccurs.hasKind_of_primitive
      (StaticType.kind_of_numeric? rightNumeric)
    obtain ⟨_, _, rfl, rfl, _⟩ :=
      exists_numbers_of_promote? promoted leftKind rightKind
    exact ⟨_, rfl⟩
  · have leftKind := leftOccurs.hasKind_of_primitive
      (StaticType.kind_of_isBoolean leftBoolean)
    have rightKind := rightOccurs.hasKind_of_primitive
      (StaticType.kind_of_isBoolean rightBoolean)
    obtain ⟨_, _, rfl, rfl⟩ := exists_booleans_of_isBoolean leftBoolean
      rightBoolean leftKind rightKind
    exact ⟨_, rfl⟩
  · refine exists_of_equals? (leftOccurs.isReference_of_primitive? ?_)
      (rightOccurs.isReference_of_primitive? ?_)
    · simp [StaticType.primitive?, leftNull]
    · refine StaticType.primitive?_eq_none_of_isReference rightReference ?_
      exact fun wraps => distinct (.inr ⟨leftNull, wraps⟩)
  · refine exists_of_equals? (leftOccurs.isReference_of_primitive? ?_)
      (rightOccurs.isReference_of_primitive? ?_)
    · refine StaticType.primitive?_eq_none_of_isReference leftReference ?_
      exact fun wraps => distinct (.inl ⟨wraps, rightNull⟩)
    · simp [StaticType.primitive?, rightNull]
  · exact exists_of_equals?
      (leftOccurs.isReference_of_primitive?
        (StaticType.primitive?_eq_none_of_isTextOrObject leftPlain))
      (rightOccurs.isReference_of_primitive?
        (StaticType.primitive?_eq_none_of_isTextOrObject rightPlain))

/-- An operator that is defined on the types of its operands divides by zero or
gives a value of the kind of its type. -/
theorem apply_of_binary? {operator : BinaryOperator} {left right : Constant}
    {leftType rightType type : StaticType}
    (defined : StaticType.binary? operator leftType rightType = some type)
    (distinct : operator.isEquality →
      ¬ leftType.ComparesWrapperWithNull rightType)
    (leftKind : left.HasKind leftType.kind)
    (rightKind : right.HasKind rightType.kind) :
    left.apply operator right = .error .divisionByZero ∨
      ∃ value, left.apply operator right = .ok value ∧
        value.HasKind type.kind := by
  cases operator with
  | arithmetic operator =>
      simp only [StaticType.binary?] at defined
      split at defined
      · rename_i concatenates
        obtain ⟨rfl, isString⟩ := concatenates
        cases defined
        rcases Bool.or_eq_true_iff.1 isString with isString | isString
        · rw [StaticType.kind_of_isString isString] at leftKind
          obtain ⟨text, rfl⟩ := leftKind.exists_string
          exact .inr ⟨_, apply_string_left text right, trivial⟩
        · rw [StaticType.kind_of_isString isString] at rightKind
          obtain ⟨text, rfl⟩ := rightKind.exists_string
          exact .inr ⟨_, apply_string_right left text, trivial⟩
      · obtain ⟨kind, promoted, rfl⟩ := Option.map_eq_some_iff.1 defined
        obtain ⟨first, second, rfl, rfl, rfl⟩ :=
          exists_numbers_of_promote? promoted leftKind rightKind
        rw [apply_arithmetic]
        cases computed : (first.pair second).arithmetic? operator with
        | none =>
            exact .inl rfl
        | some value =>
            refine .inr ⟨_, rfl, ?_⟩
            exact (NumberPair.kind_of_arithmetic? computed).trans
              (first.kind_pair second)
  | bitwise operator =>
      simp only [StaticType.binary?] at defined
      split at defined
      · rename_i booleans
        cases defined
        simp only [Bool.and_eq_true] at booleans
        obtain ⟨_, _, rfl, rfl⟩ := exists_booleans_of_isBoolean booleans.1
          booleans.2 leftKind rightKind
        exact .inr ⟨_, rfl, trivial⟩
      · obtain ⟨kind, promoted, rfl⟩ := Option.map_eq_some_iff.1 defined
        obtain ⟨first, second, rfl, rfl, leftIntegral, rightIntegral, _, rfl⟩ :=
          exists_integers_of_promoteIntegral? promoted leftKind rightKind
        have integral : (first.pair second).kind.isIntegral := by
          rw [first.kind_pair second]
          exact NumericKind.isIntegral_promote leftIntegral rightIntegral
        obtain ⟨value, computed, valueKind⟩ :=
          NumberPair.exists_of_bitwise? integral operator
        exact .inr ⟨_, apply_bitwise operator computed,
          valueKind.trans (first.kind_pair second)⟩
  | shift operator =>
      simp only [StaticType.binary?] at defined
      split at defined
      · rename_i kind _ numeric promoted
        cases defined
        obtain ⟨first, second, rfl, rfl, leftIntegral, rightIntegral, isKind,
          _⟩ := exists_integers_of_promoteIntegral? promoted leftKind rightKind
        obtain ⟨value, computed, valueKind⟩ :=
          Number.exists_of_shift? leftIntegral rightIntegral operator
        have sameKind : first.kind = kind :=
          Option.some.inj (isKind.symm.trans numeric)
        exact .inr ⟨_, apply_shift operator computed,
          valueKind.trans sameKind⟩
      · cases defined
  | logical operator =>
      simp only [StaticType.binary?] at defined
      split at defined
      · rename_i booleans
        cases defined
        simp only [Bool.and_eq_true] at booleans
        obtain ⟨_, _, rfl, rfl⟩ := exists_booleans_of_isBoolean booleans.1
          booleans.2 leftKind rightKind
        exact .inr ⟨_, rfl, trivial⟩
      · cases defined
  | equality operator =>
      obtain ⟨rule, compared, rfl⟩ := Option.map_eq_some_iff.1 defined
      obtain ⟨same, equality⟩ :=
        exists_of_equality? compared (distinct rfl) (.inl leftKind)
          (.inl rightKind)
      exact .inr ⟨_, apply_equality operator equality, trivial⟩
  | relational operator =>
      obtain ⟨kind, promoted, rfl⟩ := Option.map_eq_some_iff.1 defined
      obtain ⟨first, second, rfl, rfl, _⟩ :=
        exists_numbers_of_promote? promoted leftKind rightKind
      exact .inr ⟨_, rfl, trivial⟩
  | member =>
      cases defined

/-- An operator that is defined on the type of its operand gives a value of the
kind of its type. -/
theorem exists_applyUnary_of_unary? {operator : UnaryOperator}
    {operand : Constant} {operandType type : StaticType}
    (defined : StaticType.unary? operator operandType = some type)
    (hasKind : operand.HasKind operandType.kind) :
    ∃ value, operand.applyUnary operator = .ok value ∧
      value.HasKind type.kind := by
  cases operator with
  | negate =>
      obtain ⟨kind, numeric, rfl⟩ := Option.map_eq_some_iff.1 defined
      rw [StaticType.kind_of_numeric? numeric] at hasKind
      obtain ⟨number, rfl, rfl⟩ := hasKind.exists_number
      exact ⟨_, rfl, number.kind_negate⟩
  | plus =>
      obtain ⟨kind, numeric, rfl⟩ := Option.map_eq_some_iff.1 defined
      rw [StaticType.kind_of_numeric? numeric] at hasKind
      obtain ⟨number, rfl, rfl⟩ := hasKind.exists_number
      exact ⟨_, rfl, rfl⟩
  | not =>
      simp only [StaticType.unary?] at defined
      split at defined
      · rename_i isBoolean
        cases defined
        rw [StaticType.kind_of_isBoolean isBoolean] at hasKind
        obtain ⟨truth, rfl⟩ := hasKind.exists_boolean
        exact ⟨_, rfl, trivial⟩
      · cases defined
  | complement =>
      simp only [StaticType.unary?] at defined
      split at defined
      · rename_i kind numeric
        split at defined
        · rename_i integral
          cases defined
          rw [StaticType.kind_of_numeric? numeric] at hasKind
          obtain ⟨number, rfl, rfl⟩ := hasKind.exists_number
          obtain ⟨inverted, computed, sameKind⟩ :=
            Number.exists_of_complement? integral
          exact ⟨.number inverted, by simp [applyUnary, computed], sameKind⟩
        · cases defined
      · cases defined

end Constant

end Formula
