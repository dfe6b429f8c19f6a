import Formula.Proofs.Binary.Rounding
import Formula.Proofs.Constant.Kinds

/-!
# Comparisons of values

All comparisons of two numbers follow from one order of them, which their
conversion to a common kind leaves symmetric and which is missing exactly if one
of them is not a number. Equality extends this to the other values.
-/

namespace Formula

/-! ## Floating-point data -/

namespace Binary

variable {format : FloatFormat}

theorem compare?_eq_none_iff {left right : Binary format} :
    left.compare? right = none ↔ left.isNaN || right.isNaN := by
  rw [compare?]
  by_cases isNaN : left.isNaN || right.isNaN
  · simp [isNaN]
  · simp [isNaN]

theorem compare?_swap (left right : Binary format) :
    right.compare? left = (left.compare? right).map Ordering.swap := by
  have swapped : (compare left.rank right.rank).swap =
      compare right.rank left.rank := Int.compare_swap _ _
  rw [compare?, compare?, Bool.or_comm]
  by_cases isNaN : left.isNaN || right.isNaN
  · rw [if_pos isNaN, if_pos isNaN]
    rfl
  · rw [if_neg isNaN, if_neg isNaN, Option.map_some, swapped]

theorem compare?_self {x : Binary format} (isNumber : ¬ x.isNaN) :
    x.compare? x = some .eq := by
  have isNumber' : ¬ (x.isNaN || x.isNaN) := by
    rwa [Bool.or_self]
  rw [compare?, if_neg isNumber', Int.compare_eq_eq.2 rfl]

/-! ## Conversions -/

/-- What is rounded is a number, if an infinite one. -/
theorem isNaN_ofRatio (negative : Bool) (numerator denominator : Nat) :
    (ofRatio negative numerator denominator : Binary format).isNaN = false := by
  have bounded : min format.infinityMagnitude
      (nearestMagnitude format numerator denominator) ≤
        format.infinityMagnitude :=
    Nat.min_le_left _ _
  have small := Nat.lt_of_le_of_lt bounded (infinityMagnitude_lt format)
  rw [isNaN, ofRatio, magnitude_ofMagnitude negative small]
  exact decide_eq_false (Nat.not_lt.2 bounded)

theorem isNaN_ofInt (value : Int) :
    (ofInt value : Binary format).isNaN = false :=
  isNaN_ofRatio _ _ _

theorem isNaN_infinity (negative : Bool) :
    (infinity negative : Binary format).isNaN = false := by
  rw [isNaN, infinity, magnitude_ofMagnitude _ (infinityMagnitude_lt _)]
  exact decide_eq_false (Nat.lt_irrefl _)

/-- Widening makes no number of what is none, and the other way round. -/
theorem isNaN_convert (x : Single) :
    (x.convert : Double).isNaN = x.isNaN := by
  unfold convert
  by_cases isNaN : x.isNaN
  · rw [if_pos isNaN, isNaN]
    decide
  · rw [if_neg isNaN, Bool.eq_false_iff.2 isNaN]
    by_cases isInfinite : x.isInfinite
    · rw [if_pos isInfinite]
      exact isNaN_infinity _
    · rw [if_neg isInfinite]
      exact isNaN_ofRatio _ _ _

end Binary

/-! ## Numbers -/

theorem Integer.order_swap {width : Nat} (left right : BitVec width) :
    order right left = (order left right).swap :=
  (Int.compare_swap _ _).symm

/-- Whether a number is none, which only floating-point data can be. -/
def Number.isNaN : Number → Bool
  | .int _ | .long _ => false
  | .float value => value.isNaN
  | .double value => value.isNaN

namespace NumberPair

def involvesNaN : NumberPair → Bool
  | .int _ _ | .long _ _ => false
  | .float left right => left.isNaN || right.isNaN
  | .double left right => left.isNaN || right.isNaN

def swap : NumberPair → NumberPair
  | .int left right => .int right left
  | .long left right => .long right left
  | .float left right => .float right left
  | .double left right => .double right left

theorem order?_swap (pair : NumberPair) :
    pair.swap.order? = pair.order?.map Ordering.swap := by
  cases pair with
  | int left right | long left right =>
      exact congrArg some (Integer.order_swap left right)
  | float left right | double left right =>
      exact Binary.compare?_swap left right

theorem order?_eq_none_iff {pair : NumberPair} :
    pair.order? = none ↔ pair.involvesNaN := by
  cases pair with
  | int | long =>
      simp [order?, involvesNaN]
  | float | double =>
      exact Binary.compare?_eq_none_iff

end NumberPair

namespace Number

theorem swap_pair (left right : Number) :
    (left.pair right).swap = right.pair left := by
  cases left <;> cases right <;> rfl

theorem order?_pair_swap (left right : Number) :
    (right.pair left).order? = (left.pair right).order?.map Ordering.swap := by
  rw [← swap_pair, NumberPair.order?_swap]

/-- The conversion to a common kind keeps what is not a number. -/
theorem involvesNaN_pair (left right : Number) :
    (left.pair right).involvesNaN = (left.isNaN || right.isNaN) := by
  cases left <;> cases right <;>
    simp [pair, NumberPair.involvesNaN, isNaN, Binary.isNaN_ofInt,
      Binary.isNaN_convert]

theorem order?_pair_self {number : Number} (isNumber : ¬ number.isNaN) :
    (number.pair number).order? = some .eq := by
  cases number with
  | int value | long value =>
      exact congrArg some (Int.compare_eq_eq.2 rfl)
  | float value | double value =>
      exact Binary.compare?_self isNumber

theorem order?_pair_self_of_isNaN {number : Number} (isNaN : number.isNaN) :
    (number.pair number).order? = none := by
  rw [NumberPair.order?_eq_none_iff, involvesNaN_pair, Bool.or_self]
  exact isNaN

end Number

/-! ## Truth of an order -/

/-- The operator that holds of two numbers the other way round. -/
def RelationalOperator.reverse : RelationalOperator → RelationalOperator
  | .less => .greater
  | .greater => .less
  | .lessOrEqual => .greaterOrEqual
  | .greaterOrEqual => .lessOrEqual

/-- Whether two numbers satisfy an operator, given their order: numbers without
an order satisfy none. -/
def RelationalOperator.accepts (operator : RelationalOperator)
    (order? : Option Ordering) : Bool :=
  match operator with
  | .less => order? == some .lt
  | .greater => order? == some .gt
  | .lessOrEqual => order? == some .lt || order? == some .eq
  | .greaterOrEqual => order? == some .gt || order? == some .eq

namespace RelationalOperator

theorem accepts_swap (operator : RelationalOperator)
    (order? : Option Ordering) :
    operator.reverse.accepts (order?.map Ordering.swap) =
      operator.accepts order? := by
  cases order? with
  | none =>
      cases operator <;> rfl
  | some order =>
      cases operator <;> cases order <;> rfl

theorem any_holds (operator : RelationalOperator)
    (order? : Option Ordering) :
    order?.any operator.holds = operator.accepts order? := by
  cases order? with
  | none =>
      cases operator <;> rfl
  | some order =>
      cases operator <;> cases order <;> rfl

end RelationalOperator

/-! ## Values -/

namespace Constant

def isNaN : Constant → Bool
  | .number value => value.isNaN
  | .boolean _ | .string _ | .null | .object _ => false

theorem equals?_swap (left right : Constant) :
    right.equals? left = left.equals? right := by
  cases left with
  | number left =>
      cases right with
      | number right =>
          simp only [equals?]
          rw [Number.order?_pair_swap]
          cases (left.pair right).order? with
          | none =>
              rfl
          | some order =>
              cases order <;> rfl
      | boolean | string | null | object =>
          rfl
  | boolean left =>
      cases right with
      | boolean right =>
          exact congrArg some Bool.beq_comm
      | number | string | null | object =>
          rfl
  | string left =>
      cases right with
      | string right =>
          exact congrArg some (BEq.comm)
      | number | boolean | null | object =>
          rfl
  | null =>
      cases right <;> rfl
  | object left =>
      cases right with
      | object right =>
          exact congrArg some (BEq.comm)
      | number | boolean | string | null =>
          rfl

theorem equals?_self (value : Constant) :
    value.equals? value = some !value.isNaN := by
  cases value with
  | number number =>
      simp only [equals?, Constant.isNaN]
      by_cases isNaN : number.isNaN
      · rw [Number.order?_pair_self_of_isNaN isNaN, isNaN]
        rfl
      · rw [Number.order?_pair_self isNaN, Bool.eq_false_iff.2 isNaN]
        rfl
  | boolean | string | null | object =>
      simp [equals?, isNaN]

/-- An operator has a truth value on two values. -/
def Yields (operator : BinaryOperator) (left right : Constant)
    (truth : Bool) : Prop :=
  left.apply operator right = .ok (.boolean truth)

/-- An operator is not defined on two values. -/
def Rejects (operator : BinaryOperator) (left right : Constant) : Prop :=
  left.apply operator right =
    .error (.unsupported (.binary operator) (.two left.kind right.kind))

theorem rejects_equality (operator : EqualityOperator)
    {left right : Constant} (notCompared : left.equals? right = none) :
    Rejects (.equality operator) left right := by
  simp [Rejects, apply, applyDefined?, notCompared]

theorem yields_relational (operator : RelationalOperator)
    (left right : Number) :
    Yields (.relational operator) (.number left) (.number right)
      (operator.accepts (left.pair right).order?) := by
  rw [← RelationalOperator.any_holds]
  rfl

theorem yields_equality (operator : EqualityOperator)
    (left right : Number) :
    Yields (.equality operator) (.number left) (.number right)
      (operator.apply ((left.pair right).order? == some .eq)) :=
  rfl

theorem exists_relational_iff {operator : RelationalOperator}
    {left right : Constant} :
    (∃ value, left.apply (.relational operator) right = .ok value) ↔
      ∃ first second, left = .number first ∧ right = .number second := by
  constructor
  · rintro ⟨value, applied⟩
    cases left with
    | number first =>
        cases right with
        | number second =>
            exact ⟨first, second, rfl, rfl⟩
        | boolean | string | null | object =>
            cases applied
    | boolean | string | null | object =>
        cases applied
  · rintro ⟨first, second, rfl, rfl⟩
    exact ⟨_, yields_relational operator first second⟩

theorem yields_reverse (operator : RelationalOperator)
    (left right : Number) :
    Yields (.relational operator.reverse) (.number right) (.number left)
      (operator.accepts (left.pair right).order?) := by
  rw [← RelationalOperator.accepts_swap, ← Number.order?_pair_swap]
  exact yields_relational operator.reverse right left

/-- Equality is symmetric and the other operator its negation, or none of the
four comparisons is defined. -/
theorem exists_yields_or_rejects (left right : Constant) :
    (∃ same : Bool,
      Yields (.equality .equal) left right same ∧
        Yields (.equality .equal) right left same ∧
          Yields (.equality .notEqual) left right (!same) ∧
            Yields (.equality .notEqual) right left (!same)) ∨
      ∀ operator : EqualityOperator,
        Rejects (.equality operator) left right ∧
          Rejects (.equality operator) right left := by
  have swapped := equals?_swap left right
  cases compared : left.equals? right with
  | some same =>
      rw [compared] at swapped
      exact .inl ⟨same, apply_equality .equal compared,
        apply_equality .equal swapped, apply_equality .notEqual compared,
        apply_equality .notEqual swapped⟩
  | none =>
      rw [compared] at swapped
      exact .inr fun operator => ⟨rejects_equality operator compared,
        rejects_equality operator swapped⟩

end Constant

/-- Exactly one of three facts holds of numbers that have an order, and none of
numbers that have none. -/
theorem NumberPair.count_order? (pair : NumberPair) :
    [pair.order? == some .lt, pair.order? == some .eq,
        pair.order? == some .gt].count true =
      if pair.involvesNaN then 0 else 1 := by
  by_cases isNaN : pair.involvesNaN
  · rw [if_pos isNaN, NumberPair.order?_eq_none_iff.2 isNaN]
    rfl
  · rw [if_neg isNaN]
    have ordered : pair.order? ≠ none := fun none =>
      isNaN (NumberPair.order?_eq_none_iff.1 none)
    obtain ⟨order, isOrder⟩ := Option.ne_none_iff_exists'.1 ordered
    rw [isOrder]
    cases order <;> rfl

/-- The comparisons of any two values. Equality and its negation are both
defined or both not, whichever value comes first; where they are defined they
are symmetric and contradict each other, and every value but a number that is
none equals itself. The order comparisons are defined on numbers only, and say
of two numbers that exactly one of them is less, both are equal or the other is
less, unless one of the numbers that are compared is none: then only inequality
holds. -/
theorem comparisons_cohere (left right : Constant) :
    ((∃ same : Bool,
      Constant.Yields (.equality .equal) left right same ∧
        Constant.Yields (.equality .equal) right left same ∧
          Constant.Yields (.equality .notEqual) left right (!same) ∧
            Constant.Yields (.equality .notEqual) right left (!same)) ∨
      ∀ operator : EqualityOperator,
        Constant.Rejects (.equality operator) left right ∧
          Constant.Rejects (.equality operator) right left) ∧
      Constant.Yields (.equality .equal) left left (!left.isNaN) ∧
      (∀ operator : RelationalOperator,
        (∃ value, left.apply (.relational operator) right = .ok value) ↔
          ∃ first second, left = .number first ∧ right = .number second) ∧
      ∀ first second : Number, ∃ less equal greater : Bool,
        Constant.Yields (.relational .less) (.number first) (.number second)
            less ∧
          Constant.Yields (.relational .greater) (.number second)
            (.number first) less ∧
          Constant.Yields (.relational .greater) (.number first)
            (.number second) greater ∧
          Constant.Yields (.relational .lessOrEqual) (.number first)
            (.number second) (less || equal) ∧
          Constant.Yields (.relational .greaterOrEqual) (.number second)
            (.number first) (less || equal) ∧
          Constant.Yields (.relational .greaterOrEqual) (.number first)
            (.number second) (greater || equal) ∧
          Constant.Yields (.equality .equal) (.number first) (.number second)
            equal ∧
          Constant.Yields (.equality .notEqual) (.number first)
            (.number second) (!equal) ∧
          [less, equal, greater].count true =
            (if (first.pair second).involvesNaN then 0 else 1) ∧
          (first.pair second).involvesNaN =
            (first.isNaN || second.isNaN) := by
  refine ⟨Constant.exists_yields_or_rejects left right,
    Constant.apply_equality .equal left.equals?_self,
    fun operator => Constant.exists_relational_iff, fun first second => ?_⟩
  have forward (operator : RelationalOperator) :=
    Constant.yields_relational operator first second
  have backward (operator : RelationalOperator) :=
    Constant.yields_reverse operator first second
  let order? := (first.pair second).order?
  exact ⟨order? == some .lt, order? == some .eq, order? == some .gt,
    forward .less, backward .less, forward .greater, forward .lessOrEqual,
    backward .lessOrEqual, forward .greaterOrEqual,
    Constant.yields_equality .equal first second,
    Constant.yields_equality .notEqual first second,
    NumberPair.count_order? _, Number.involvesNaN_pair first second⟩

/-- Two zeros of different signs are equal, and a number that is none is neither
less than nor equal to an integer. -/
example :
    Constant.Yields (.equality .equal) (.number (.float (.zero true)))
        (.number (.int 0)) true ∧
      Constant.Yields (.relational .lessOrEqual) (.number (.double .nan))
        (.number (.long 1)) false :=
  ⟨rfl, rfl⟩

end Formula
