import Formula.Proofs.Constant.Kinds
import Formula.Proofs.Machine

/-!
# Conversions on the stack machine

What follows an operand makes it the value that the operation takes, or fails
at an absent wrapper.
-/

namespace Formula

/-! ## Inhabitants -/

namespace Constant

/-- A value has the kind of a type, or is absent where the type admits it. -/
def Inhabits (value : Constant) (type : StaticType) : Prop :=
  value.HasKind type.kind ∨ (type.nullable ∧ value = .null)

namespace Inhabits

theorem eq_null {value : Constant} {type : StaticType}
    (inhabits : value.Inhabits type) (isNull : type.kind = .null) :
    value = .null := by
  rcases inhabits with hasKind | ⟨_, rfl⟩
  · rw [isNull] at hasKind
    exact hasKind.eq_null
  · rfl

theorem isReference {value : Constant} {type : StaticType}
    (inhabits : value.Inhabits type) (notPrimitive : type.primitive? = none) :
    value.isReference := by
  rcases inhabits with hasKind | ⟨_, rfl⟩
  · exact hasKind.isReference_of_primitive? notPrimitive
  · rfl

end Inhabits

end Constant

/-! ## Widening -/

namespace NumericKind

theorem rank_le_promote_left (left right : NumericKind) :
    left.rank ≤ (left.promote right).rank := by
  unfold promote
  split <;> omega

theorem rank_le_promote_right (left right : NumericKind) :
    right.rank ≤ (left.promote right).rank := by
  unfold promote
  split <;> omega

end NumericKind

namespace Number

theorem kind_widen {value : Number} {kind : NumericKind}
    (wider : value.kind.rank ≤ kind.rank) :
    (value.widen kind).kind = kind := by
  cases value <;> cases kind <;>
    simp_all [widen, Number.kind, NumericKind.rank]

/-- Numbers that were widened to the kind where they meet meet there as they
did before. -/
theorem pair_widen {left right : Number} {kind : NumericKind}
    (promoted : left.kind.promote right.kind = kind) :
    (left.widen kind).pair (right.widen kind) = left.pair right := by
  subst promoted
  cases left <;> cases right <;> rfl

end Number

/-! ## Shift distances -/

/-- Of a distance only the lower half counts. -/
theorem Number.shift?_truncate (operator : ShiftOperator) (value : Number)
    (distance : BitVec 64) :
    value.shift? operator (.int (distance.truncate 32)) =
      value.shift? operator (.long distance) := by
  cases value <;> rfl

/-! ## Prepared operands -/

namespace Machine

variable (machine : Machine)

/-- Code turns the inhabitants of a type into values that are related to
them. -/
def Prepares (code : List Instruction) (type : StaticType)
    (related : Constant → Constant → Prop) : Prop :=
  ∀ value : Constant, value.Inhabits type → ∀ stack,
    (machine.run code (value :: stack)).Reaches fun next =>
      ∃ prepared, related value prepared ∧ next = prepared :: stack

theorem prepares_nil (type : StaticType) :
    machine.Prepares [] type fun value prepared =>
      prepared = value ∧ value.Inhabits type :=
  fun _ inhabits _ => .inr ⟨_, rfl, _, ⟨rfl, inhabits⟩, rfl⟩

theorem step_unbox (kind : PrimitiveKind) (value : Constant)
    (stack : List Constant) :
    machine.step (.unbox kind) (value :: stack) =
      if value = .null then .failed (.unbox kind)
      else if value.kind = .primitive kind then .running (value :: stack)
      else .undefined :=
  rfl

/-- Unboxing a primitive or its wrapper leaves a value that is present. -/
theorem prepares_unboxing {type : StaticType} {kind : PrimitiveKind}
    (isPrimitive : type.kind = .primitive kind) :
    machine.Prepares (unboxing type) type fun value prepared =>
      prepared = value ∧ value.HasKind (.primitive kind) := by
  obtain ⟨_, nullable⟩ := type
  cases isPrimitive
  intro value inhabits stack
  cases nullable with
  | false =>
      rcases inhabits with hasKind | ⟨isNullable, _⟩
      · exact .inr ⟨_, rfl, value, ⟨rfl, hasKind⟩, rfl⟩
      · cases isNullable
  | true =>
      have unboxed : unboxing ⟨.primitive kind, true⟩ = [.unbox kind] := rfl
      rw [unboxed, run_singleton]
      rcases inhabits with hasKind | ⟨_, rfl⟩
      · have kindOf : value.kind = .primitive kind :=
          hasKind.kind_eq_runtimeKind
        have present : value ≠ .null := by
          rintro rfl
          cases kindOf
        rw [machine.step_unbox, if_neg present, if_pos kindOf]
        exact .inr ⟨_, rfl, value, ⟨rfl, hasKind⟩, rfl⟩
      · exact .inl ⟨_, rfl, rfl⟩

theorem run_widening {number : Number} {target : NumericKind}
    (wider : number.kind.rank ≤ target.rank) (stack : List Constant) :
    machine.run (widening number.kind target) (.number number :: stack) =
      .running (.number (number.widen target) :: stack) := by
  cases number with
  | int value =>
      cases target <;> rfl
  | long value =>
      cases target with
      | int =>
          exact absurd wider (Nat.not_succ_le_self 0)
      | long | float | double =>
          rfl
  | float value =>
      cases target with
      | int | long =>
          simp [Number.kind, NumericKind.rank] at wider
      | float | double =>
          rfl
  | double value =>
      cases target with
      | int | long | float =>
          simp [Number.kind, NumericKind.rank] at wider
      | double =>
          rfl

/-- A number or its wrapper becomes a number of a wider kind. -/
theorem prepares_coercion {type : StaticType} {source target : NumericKind}
    (numeric : type.numeric? = some source)
    (wider : source.rank ≤ target.rank) :
    machine.Prepares (coercion type target) type fun value prepared =>
      ∃ number, value = .number number ∧ number.kind = source ∧
        prepared = .number (number.widen target) := by
  have isPrimitive := StaticType.kind_of_numeric? numeric
  intro value inhabits stack
  simp only [coercion, numeric]
  refine machine.reaches_append
    (machine.prepares_unboxing isPrimitive value inhabits stack) ?_
  rintro _ ⟨_, ⟨rfl, hasKind⟩, rfl⟩
  obtain ⟨number, rfl, rfl⟩ := hasKind.exists_number
  exact .inr ⟨_, machine.run_widening wider stack, _,
    ⟨number, rfl, rfl, rfl⟩, rfl⟩

/-- What follows the distance of a shift. -/
def distancing (type : StaticType) : List Instruction :=
  if type.numeric? = some .long then unboxing type ++ [.convert .longToInt]
  else unboxing type

/-- A distance becomes an int that shifts by as many places. -/
theorem prepares_distancing {type : StaticType} {kind : NumericKind}
    (numeric : type.numeric? = some kind) (integral : kind.isIntegral) :
    machine.Prepares (distancing type) type fun value prepared =>
      ∃ number places, value = .number number ∧ number.kind = kind ∧
        prepared = .number (.int places) ∧
          ∀ operator (shifted : Number),
            shifted.shift? operator (.int places) =
              shifted.shift? operator number := by
  have isPrimitive := StaticType.kind_of_numeric? numeric
  intro value inhabits stack
  have unboxed := machine.prepares_unboxing isPrimitive value inhabits
    stack
  cases kind with
  | int =>
      rw [distancing, numeric, if_neg (by decide)]
      refine unboxed.weaken ?_
      rintro _ ⟨_, ⟨rfl, hasKind⟩, rfl⟩
      obtain ⟨number, rfl, isInt⟩ := hasKind.exists_number
      cases number with
      | int places =>
          exact ⟨_, ⟨_, places, rfl, rfl, rfl, fun _ _ => rfl⟩, rfl⟩
      | long | float | double =>
          cases isInt
  | long =>
      rw [distancing, if_pos numeric]
      refine machine.reaches_append unboxed ?_
      rintro _ ⟨_, ⟨rfl, hasKind⟩, rfl⟩
      obtain ⟨number, rfl, isLong⟩ := hasKind.exists_number
      cases number with
      | long places =>
          exact .inr ⟨_, rfl, _, ⟨_, _, rfl, rfl, rfl, fun operator shifted =>
            shifted.shift?_truncate operator places⟩, rfl⟩
      | int | float | double =>
          cases isLong
  | float | double =>
      cases integral

/-- Every value becomes its text. -/
theorem prepares_stringifying (type : StaticType) :
    machine.Prepares (stringifying type) type fun value prepared =>
      value.Inhabits type ∧ prepared = .string value.text := by
  intro value inhabits stack
  by_cases isString : type = .string
  · subst isString
    rcases inhabits with hasKind | ⟨isNullable, _⟩
    · obtain ⟨text, rfl⟩ := hasKind.exists_string
      exact .inr ⟨_, rfl, _, ⟨.inl trivial, rfl⟩, rfl⟩
    · cases isNullable
  · rw [stringifying, if_neg isString, run_singleton]
    exact .inr ⟨_, rfl, _, ⟨inhabits, rfl⟩, rfl⟩

/-- Boxing keeps a value that is present. -/
theorem run_boxing {value : Constant} {type : StaticType}
    (hasKind : value.HasKind type.kind) (stack : List Constant) :
    machine.run (boxing type) (value :: stack) = .running (value :: stack) := by
  have kindOf := hasKind.kind_eq_runtimeKind
  obtain ⟨kind, nullable⟩ := type
  cases kind with
  | primitive kind =>
      cases nullable with
      | false =>
          rfl
      | true =>
          have boxed : boxing ⟨.primitive kind, true⟩ = [.box kind] := rfl
          rw [boxed, run_singleton]
          exact if_pos kindOf
  | string | object | null =>
      rfl

end Machine

end Formula
