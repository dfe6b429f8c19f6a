import Formula.Evaluation
import Formula.Proofs.Constant.Comparison
import Formula.Proofs.Lowering.Pools

/-!
# Equality of types and of values

Values of types that can be compared can be compared themselves, but for one
pair of types. A wrapper is compared with `null` by reference, while evaluation
knows the primitive in it alone, and no primitive is compared with `null`.
-/

namespace Formula

/-- What a wrapper holds. -/
theorem StaticType.exists_primitive_of_isWrapper {type : StaticType}
    (isWrapper : type.isWrapper) : ∃ kind, type.kind = .primitive kind := by
  obtain ⟨kind, nullable⟩ := type
  cases kind with
  | primitive kind =>
      exact ⟨kind, rfl⟩
  | string | object | null =>
      simp [StaticType.isWrapper, primitive?] at isWrapper

namespace Constant

theorem equals?_null_of_hasKind {value : Constant} {kind : PrimitiveKind}
    (hasKind : value.HasKind (.primitive kind)) :
    value.equals? .null = none := by
  cases kind with
  | number kind =>
      obtain ⟨number, rfl, _⟩ := hasKind.exists_number
      rfl
  | boolean =>
      obtain ⟨truth, rfl⟩ := hasKind.exists_boolean
      rfl

variable {left right : Constant} {leftType rightType : StaticType}

theorem equals?_of_comparesWrapperWithNull
    (mixed : leftType.ComparesWrapperWithNull rightType)
    (leftOccurs : left.OccursAs leftType)
    (rightOccurs : right.OccursAs rightType) :
    left.equals? right = none := by
  rcases mixed with ⟨isWrapper, isNull⟩ | ⟨isNull, isWrapper⟩
  · obtain ⟨kind, isPrimitive⟩ :=
      StaticType.exists_primitive_of_isWrapper isWrapper
    have hasKind := leftOccurs.hasKind_of_primitive isPrimitive
    rw [isPrimitive] at hasKind
    rw [rightOccurs.eq_null isNull]
    exact equals?_null_of_hasKind hasKind
  · obtain ⟨kind, isPrimitive⟩ :=
      StaticType.exists_primitive_of_isWrapper isWrapper
    have hasKind := rightOccurs.hasKind_of_primitive isPrimitive
    rw [isPrimitive] at hasKind
    rw [leftOccurs.eq_null isNull, ← equals?_swap]
    exact equals?_null_of_hasKind hasKind

end Constant

/-- Types that can be compared, but for a wrapper with `null`, hold values on
which both equality operators are defined and contradict each other. On a
wrapper with `null` neither operator is defined, whatever the values are. -/
theorem equality_of_comparable_types {leftType rightType : StaticType}
    {rule : EqualityRule}
    (comparable : leftType.equality? rightType = some rule)
    {left right : Constant} (leftOccurs : left.OccursAs leftType)
    (rightOccurs : right.OccursAs rightType) :
    (¬ leftType.ComparesWrapperWithNull rightType →
        ∃ same : Bool,
          Constant.Yields (.equality .equal) left right same ∧
            Constant.Yields (.equality .notEqual) left right (!same)) ∧
      (leftType.ComparesWrapperWithNull rightType →
        ∀ operator : EqualityOperator,
          Constant.Rejects (.equality operator) left right) := by
  constructor
  · intro distinct
    obtain ⟨same, compared⟩ := Constant.exists_of_equality? comparable distinct
      leftOccurs rightOccurs
    exact ⟨same, Constant.apply_equality .equal compared,
      Constant.apply_equality .notEqual compared⟩
  · intro mixed operator
    have notCompared := Constant.equals?_of_comparesWrapperWithNull mixed
      leftOccurs rightOccurs
    exact Constant.rejects_equality operator notCompared

/-- An absent string is compared with an object. -/
theorem equality_of_absent_string :
    let text : StaticType := ⟨.string, true⟩
    let owner : StaticType := ⟨.object "Cart", false⟩
    let cart : Constant := .object ⟨0, "Cart", "a cart"⟩
    text.equality? owner = some .reference ∧
      Constant.OccursAs .null text ∧ cart.OccursAs owner ∧
        ∃ same : Bool,
          Constant.Yields (.equality .equal) .null cart same ∧
            Constant.Yields (.equality .notEqual) .null cart (!same) := by
  intro text owner cart
  have comparable : text.equality? owner = some .reference := by
    decide
  have absent : Constant.OccursAs .null text := .inr ⟨rfl, rfl, rfl⟩
  have present : cart.OccursAs owner := .inl rfl
  have distinct : ¬ text.ComparesWrapperWithNull owner := by
    rintro (⟨isWrapper, _⟩ | ⟨isNull, _⟩)
    · cases isWrapper
    · cases isNull
  exact ⟨comparable, absent, present,
    (equality_of_comparable_types comparable absent present).1 distinct⟩

/-- It is not so of every two types that can be compared: the tokens of
`n == null` compile where `n` is the wrapper of an integer, but have no value
where `n` stands for one. -/
theorem not_forall_comparable_types_compare :
    (¬ ∀ (leftType rightType : StaticType) (rule : EqualityRule)
        (left right : Constant),
      leftType.equality? rightType = some rule →
        left.OccursAs leftType → right.OccursAs rightType →
          ∃ same : Bool,
            Constant.Yields (.equality .equal) left right same ∧
              Constant.Yields (.equality .notEqual) left right (!same)) ∧
      let wrapper : StaticType := ⟨.primitive (.number .int), true⟩
      let tokens : List Token :=
        [.binary (.equality .equal), .operand (.reference "n"),
          .operand (.constant .null)]
      Code.ofTokens (LocalMap.empty.insert "n" 0 wrapper) .none 2 tokens =
          .ok ⟨#[], #[], #[.loadLocal 0, .pushNull, .compareReferences .equal,
            .return], .boolean, 2⟩ ∧
        (Variables.evaluate
            (.ofList [("n", .constant (.number (.int 3)))]) (fun _ _ => none) 2
              tokens).result =
          .error (.unsupported (.binary (.equality .equal))
            (.two (.primitive (.number .int)) .object)) := by
  refine ⟨fun always => ?_, ?_⟩
  · obtain ⟨same, equal, _⟩ := always ⟨.primitive (.number .int), true⟩ .null
      .reference (.number (.int 3)) .null rfl (.inl rfl) (.inl trivial)
    cases equal
  · intro wrapper tokens
    have held : (LocalMap.empty.insert "n" 0 wrapper).get "n" =
        .ok ⟨0, wrapper⟩ := rfl
    have typed : TypedProgram.ofTokens (LocalMap.empty.insert "n" 0 wrapper)
        .none 2 tokens =
          .ok ⟨.binary (.equality .equal) (.slot 0 wrapper) (.literal 0 .null)
            .boolean, #[.null]⟩ :=
      TypedProgram.ofTokens_eq_ok_iff.2
        ⟨.binary (.equality .equal) (.operand (.reference "n"))
          (.operand (.constant .null)), rfl,
          .binary (.slot #[] held) (.literal #[] .null) rfl, by decide⟩
    refine ⟨?_, by decide +kernel⟩
    simp only [Code.ofTokens, typed]
    rw [Code.ofTyped_eq_map_generate]
    rfl

end Formula
