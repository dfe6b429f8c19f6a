import Formula.Evaluation
import Formula.Proofs.Constant.Kinds
import Formula.Proofs.Typing.Elaboration

/-!
# Type soundness

An expression that compiles evaluates to a value of the kind of its type,
unless it divides an integer by zero, as long as every variable holds a value
of the kind of its type.
-/

namespace Formula

variable {σ : Type}

/-! ## Environments -/

/-- Every local variable is bound to a value of its kind. -/
def LocalMap.BoundBy (locals : LocalMap) (binding : String → Constant) :
    Prop :=
  ∀ name held, locals.get name = .ok held →
    (binding name).HasKind held.type.kind

/-- A resolver answers for every local variable with the value it is bound
to. -/
def Resolver.AnswersFrom (resolver : Resolver σ) (locals : LocalMap)
    (binding : String → Constant) : Prop :=
  ∀ name held state, locals.get name = .ok held →
    (resolver name state).1 = .ok (.constant (binding name))

/-- Objects have the members that their class has, with values of the kinds of
their types. -/
def MemberTypes.HeldBy (members : MemberTypes) (objects : ObjectMembers) :
    Prop :=
  ∀ host name type, members host.className name = .ok type →
    ∃ value, objects host name = some value ∧ value.HasKind type.kind

/-- No part compares a wrapper with `null`. -/
def TypedExpression.KeepsWrappersFromNull : TypedExpression → Prop
  | .literal _ _ => True
  | .slot _ _ => True
  | .unary _ operand _ => operand.KeepsWrappersFromNull
  | .member owner _ _ => owner.KeepsWrappersFromNull
  | .binary operator left right _ =>
      left.KeepsWrappersFromNull ∧ right.KeepsWrappersFromNull ∧
        (operator.isEquality →
          ¬ left.type.ComparesWrapperWithNull right.type)

/-! ## Outcomes -/

/-- An outcome is a value of a kind, or a division by zero. -/
def Outcome.Sound (kind : TypeKind) (outcome : Outcome σ Constant) : Prop :=
  outcome.1 = .error .divisionByZero ∨
    ∃ value, outcome.1 = .ok value ∧ value.HasKind kind

theorem Outcome.Sound.andThen {kind other : TypeKind}
    {outcome : Outcome σ Constant} {next : Constant → σ → Outcome σ Constant}
    (sound : outcome.Sound kind)
    (goesOn : ∀ value state,
      value.HasKind kind → (next value state).Sound other) :
    (outcome.andThen next).Sound other := by
  obtain ⟨result, state⟩ := outcome
  rcases sound with failed | ⟨value, taken, hasKind⟩
  · cases failed
    exact .inl rfl
  · cases taken
    exact goesOn value state hasKind

/-- A left side decides only conjunctions and disjunctions, and is their
value. -/
theorem hasKind_of_decided? {objects : ObjectMembers}
    {resolver : Resolver σ} {limit : Nat} {operator : BinaryOperator}
    {left result : Constant} {leftType rightType type : StaticType}
    (decided :
      (evaluation objects resolver limit).decided? operator left =
        some result)
    (defined : StaticType.binary? operator leftType rightType = some type) :
    result.HasKind type.kind := by
  cases operator with
  | logical operator =>
      simp only [StaticType.binary?] at defined
      split at defined
      · cases defined
        simp only [Algebra.decided?, evaluation, Constant.decides?] at decided
        split at decided
        · cases decided
          trivial
        · cases decided
          trivial
        · cases decided
      · cases defined
  | bitwise | equality | relational | shift | arithmetic | member =>
      cases decided

/-- An expression that elaborates evaluates to a value of the kind of its
type or divides by zero. -/
theorem Elaborates.sound {locals : LocalMap} {members : MemberTypes}
    {objects : ObjectMembers} {resolver : Resolver σ}
    {binding : String → Constant} {limit : Nat}
    {literals next : Array Constant} {expression : Expression}
    {typed : TypedExpression}
    (elaborated : Elaborates locals members literals expression typed next)
    (bound : locals.BoundBy binding)
    (answered : resolver.AnswersFrom locals binding)
    (held : members.HeldBy objects) (distinct : typed.KeepsWrappersFromNull) :
    ∀ {depth : Nat}, depth + expression.height ≤ limit →
      ∀ state : σ,
        ((evaluation objects resolver limit).interpret limit expression depth
          state).Sound typed.type.kind := by
  induction elaborated with
  | literal literals value =>
      intro depth fits state
      simp only [Expression.height] at fits
      rw [Algebra.interpret, if_neg (by omega)]
      refine .inr ⟨value, ?_, value.hasKind_ofConstant⟩
      simp [evaluation, Resolver.follow]
  | slot literals found =>
      intro depth fits state
      simp only [Expression.height] at fits
      rw [Algebra.interpret, if_neg (by omega)]
      obtain ⟨hops, rfl⟩ := Nat.exists_eq_add_of_lt (by omega : 0 < limit)
      exact .inr ⟨_, Resolver.follow_of_answer (answered _ _ state found) _ _,
        bound _ _ found⟩
  | unary operands defined inductionHypothesis =>
      intro depth fits state
      simp only [Expression.height] at fits
      rw [Algebra.interpret, if_neg (by omega)]
      refine (inductionHypothesis distinct (by omega) state).andThen
        fun value state hasKind => ?_
      obtain ⟨result, applied, resultKind⟩ :=
        Constant.exists_applyUnary_of_unary? defined hasKind
      exact .inr ⟨result, applied, resultKind⟩
  | member operands isObject found inductionHypothesis =>
      intro depth fits state
      simp only [Expression.height] at fits
      rw [Algebra.interpret, if_neg (by omega)]
      refine (inductionHypothesis distinct (by omega) state).andThen
        fun value state hasKind => ?_
      rw [isObject] at hasKind
      obtain ⟨host, rfl, rfl⟩ := hasKind.exists_object
      obtain ⟨selected, isMember, selectedKind⟩ := held host _ _ found
      refine .inr ⟨selected, ?_, selectedKind⟩
      simp [Algebra.selectNamed, evaluation, Constant.selectOperand,
        Constant.select, isMember]
  | binary leftOperands rightOperands defined leftHypothesis
      rightHypothesis =>
      intro depth fits state
      rename_i operator first second left right type
      have notMember : operator ≠ .member := by
        rintro rfl
        cases defined
      simp only [Expression.height] at fits
      rw [Algebra.interpret_binary _ _ notMember _ _ (by omega)]
      refine (leftHypothesis distinct.1 (by omega) state).andThen
        fun leftValue state leftKind => ?_
      cases decided : (evaluation objects resolver limit).decided? operator
          leftValue with
      | some result =>
          exact .inr ⟨result, rfl, hasKind_of_decided? decided defined⟩
      | none =>
          refine (rightHypothesis distinct.2.1 (by omega) state).andThen
            fun rightValue state rightKind => ?_
          exact Constant.apply_of_binary? defined distinct.2.2 leftKind
            rightKind

/-- Code that was compiled has a type that evaluation keeps to: with variables
and members that hold values of the kinds of their types, and no wrapper
compared with `null`, the tokens evaluate to a value of the kind of the result
type, or divide by zero. -/
theorem reduce_evaluation_of_compiled {locals : LocalMap}
    {members : MemberTypes} {limit : Nat} {tokens : List Token} {code : Code}
    (compiled : Code.ofTokens locals members limit tokens = .ok code)
    {objects : ObjectMembers} {resolver : Resolver σ}
    {binding : String → Constant} (bound : locals.BoundBy binding)
    (answered : resolver.AnswersFrom locals binding)
    (held : members.HeldBy objects)
    (distinct : ∀ program,
      TypedProgram.ofTokens locals members limit tokens = .ok program →
        program.root.KeepsWrappersFromNull)
    (state : σ) :
    let result :=
      ((evaluation objects resolver limit).reduce limit state tokens).result
    result = .error .divisionByZero ∨
      ∃ value, result = .ok value ∧ value.HasKind code.resultType.kind ∧
        value.kind = code.resultType.runtimeKind := by
  obtain ⟨program, typed, lowered⟩ := Code.exists_program_of_ofTokens compiled
  obtain ⟨expression, rfl, elaborated, fits⟩ :=
    TypedProgram.ofTokens_eq_ok_iff.1 typed
  have sound := elaborated.sound bound answered held (distinct program typed)
    (by omega : 0 + expression.height ≤ limit) state
  rw [← Algebra.outcome_reduce_tokens] at sound
  rw [Code.resultType_of_ofTyped lowered]
  rcases sound with failed | ⟨value, evaluated, hasKind⟩
  · exact .inl failed
  · exact .inr ⟨value, evaluated, hasKind, hasKind.kind_eq_runtimeKind⟩

/-- The tokens of `cart.total / count`, whose right side is a wrapper. -/
theorem exists_value_of_compiled_quotient :
    let locals : LocalMap :=
      (LocalMap.empty.insert "cart" 0 ⟨.object "Cart", false⟩).insert "count" 1
        ⟨.primitive (.number .int), true⟩
    let members : MemberTypes :=
      MemberTypes.none.insert "Cart" "total" (.number .long)
    let objects : ObjectMembers := fun _ _ => some (.number (.long 7))
    let binding : String → Constant := fun name =>
      if name = "cart" then .object ⟨0, "Cart", "a cart"⟩
      else .number (.int 2)
    let resolver : Resolver Nat := fun name asked =>
      (.ok (.constant (binding name)), asked + 1)
    let tokens : List Token :=
      [.binary (.arithmetic .divide), .binary .member,
        .operand (.reference "cart"), .operand (.reference "total"),
        .operand (.reference "count")]
    ∃ code, Code.ofTokens locals members 3 tokens = .ok code ∧
      code.resultType = .number .long ∧
        let result :=
          ((evaluation objects resolver 3).reduce 3 0 tokens).result
        result = .error .divisionByZero ∨
          ∃ value, result = .ok value ∧
            value.HasKind code.resultType.kind ∧
              value.kind = code.resultType.runtimeKind := by
  intro locals members objects binding resolver tokens
  have cart : locals.get "cart" = .ok ⟨0, ⟨.object "Cart", false⟩⟩ := rfl
  have count :
      locals.get "count" = .ok ⟨1, ⟨.primitive (.number .int), true⟩⟩ := rfl
  have typed : TypedProgram.ofTokens locals members 3 tokens =
      .ok ⟨.binary (.arithmetic .divide)
        (.member (.slot 0 ⟨.object "Cart", false⟩) "total" (.number .long))
        (.slot 1 ⟨.primitive (.number .int), true⟩) (.number .long), #[]⟩ :=
    TypedProgram.ofTokens_eq_ok_iff.2
      ⟨.binary (.arithmetic .divide)
        (.binary .member (.operand (.reference "cart"))
          (.operand (.reference "total")))
        (.operand (.reference "count")), rfl,
        .binary (.member (.slot #[] cart) rfl rfl) (.slot #[] count) rfl,
        by decide⟩
  have compiled : Code.ofTokens locals members 3 tokens =
      .ok ⟨#[], #["total"],
        #[.loadLocal 0, .getMember 0, .loadLocal 1, .unbox (.number .int),
          .convert .intToLong, .operate (.number .long) '/'.toUInt8, .return],
        .number .long, 2⟩ := by
    simp [Code.ofTokens, typed, Code.ofTyped, LoweringStep.run,
      LoweringStep.ofNode, LoweringStep.conversions, TypedExpression.type,
      BinaryPlan.of?, BinaryPlan.operating?, BinaryPlan.onNumbers,
      BinaryOperator.code?, coercion, unboxing, widening, boxing,
      StaticType.isString, StaticType.numeric?, StaticType.primitive?,
      StaticType.number, Emission.empty, Emission.emit, Emission.emitMember,
      Pool.empty, Pool.insert]
  have bound : locals.BoundBy binding := by
    intro name held found
    rw [LocalMap.get_insert, LocalMap.get_insert, LocalMap.get_empty] at found
    split at found
    · rename_i isCount
      cases found
      subst isCount
      rfl
    · split at found
      · rename_i isCart
        cases found
        subst isCart
        rfl
      · cases found
  refine ⟨_, compiled, rfl, reduce_evaluation_of_compiled compiled bound
    (fun name held state found => rfl) (fun host name type found => ?_)
    (fun program isProgram => ?_) 0⟩
  · simp only [members, MemberTypes.insert, MemberTypes.none] at found
    split at found
    · cases found
      exact ⟨_, rfl, rfl⟩
    · cases found
  · rw [typed] at isProgram
    cases isProgram
    refine ⟨trivial, trivial, fun isEquality => ?_⟩
    cases isEquality

end Formula
