import Formula.Proofs.Constant.Definedness
import Formula.Proofs.Lowering.Completion
import Formula.Proofs.Reduction.Structure
import Formula.Proofs.Typing.Soundness

/-!
# Type completeness

An expression that evaluates also compiles, as long as every variable holds a
value of the kind of its type and no operator leaves out its right side: what
typing rejects has no value.
-/

namespace Formula

variable {σ : Type}

/-! ## Environments -/

/-- A resolver answers for local variables alone, with the values they are
bound to. -/
def Resolver.AnswersOnlyFrom (resolver : Resolver σ) (locals : LocalMap)
    (binding : String → Constant) : Prop :=
  ∀ name state operand, (resolver name state).1 = .ok operand →
    operand = .constant (binding name) ∧
      ∃ held, locals.get name = .ok held

/-- The types of members tell of every member that an object has, and of the
kind of its value. -/
def MemberTypes.Describes (members : MemberTypes) (objects : ObjectMembers) :
    Prop :=
  ∀ host name value, objects host name = some value →
    ∃ type, members host.className name = .ok type ∧
      value.HasKind type.kind

/-- A reference that leads to a value is a local variable bound to it. -/
theorem Resolver.AnswersOnlyFrom.exists_local {resolver : Resolver σ}
    {locals : LocalMap} {binding : String → Constant}
    (answered : resolver.AnswersOnlyFrom locals binding) {limit hops : Nat}
    {name : String} {state final : σ} {value : Constant}
    (followed : resolver.follow limit hops (.reference name) state =
      (.ok value, final)) :
    value = binding name ∧ ∃ held, locals.get name = .ok held := by
  cases hops with
  | zero =>
      cases followed
  | succ hops =>
      rw [Resolver.follow] at followed
      cases called : resolver name state with
      | mk answer next =>
          rw [called] at followed
          cases answer with
          | error error =>
              cases followed
          | ok operand =>
              obtain ⟨rfl, isLocal⟩ := answered name state operand
                (congrArg Prod.fst called)
              cases hops <;> cases followed <;> exact ⟨rfl, isLocal⟩

/-- A selection that has a value names a member of an object. -/
theorem exists_host_of_selectNamed {objects : ObjectMembers}
    {resolver : Resolver σ} {limit : Nat} {owner value : Constant}
    {right : Expression}
    (selected : (evaluation objects resolver limit).selectNamed owner right =
      .ok value) :
    ∃ host name, owner = .object host ∧
      right = .operand (.reference name) ∧ objects host name = some value := by
  cases right with
  | unary | binary =>
      cases selected
  | operand operand =>
      cases operand with
      | constant constant =>
          cases selected
      | reference name =>
          simp only [Algebra.selectNamed, evaluation,
            Constant.selectOperand, Constant.select] at selected
          split at selected
          · rename_i host
            split at selected
            · rename_i found
              cases selected
              exact ⟨host, name, rfl, rfl, found⟩
            · cases selected
          · cases selected

/-! ## Expressions -/

/-- An expression that evaluates to a value elaborates, and the value has the
kind of its type. -/
theorem elaborates_of_evaluates {locals : LocalMap} {members : MemberTypes}
    {objects : ObjectMembers} {resolver : Resolver σ}
    {binding : String → Constant} {limit : Nat}
    (bound : locals.BoundBy binding)
    (answered : resolver.AnswersOnlyFrom locals binding)
    (described : members.Describes objects) (expression : Expression) :
    ∀ {depth : Nat} {state final : σ} {value : Constant},
      Token.NoneLogical expression.tokens →
        (evaluation objects resolver limit).interpret limit expression depth
            state = (.ok value, final) →
          ∀ literals, ∃ typed next,
            Elaborates locals members literals expression typed next ∧
              value.HasKind typed.type.kind := by
  induction expression with
  | operand operand =>
      intro depth state final value noneLogical evaluated literals
      have inside := Algebra.lt_limit_of_interpret_eq_ok evaluated
      rw [Algebra.interpret, if_neg (Nat.not_le_of_lt inside)] at evaluated
      cases operand with
      | constant constant =>
          simp only [evaluation, Resolver.follow] at evaluated
          cases evaluated
          exact ⟨_, _, .literal literals value, value.hasKind_ofConstant⟩
      | reference name =>
          obtain ⟨rfl, held, found⟩ := answered.exists_local evaluated
          exact ⟨_, _, .slot literals found, bound name held found⟩
  | unary operator inner inductionHypothesis =>
      intro depth state final value noneLogical evaluated literals
      have inside := Algebra.lt_limit_of_interpret_eq_ok evaluated
      rw [Algebra.interpret, if_neg (Nat.not_le_of_lt inside)] at evaluated
      obtain ⟨operand, middle, taken, applied⟩ :=
        Outcome.andThen_eq_ok_iff.1 evaluated
      obtain ⟨typed, next, elaborated, hasKind⟩ := inductionHypothesis
        (noneLogical.subset (List.subset_cons_self _ _)) taken literals
      obtain ⟨type, defined, resultKind⟩ :=
        Constant.exists_type_of_applyUnary (congrArg Prod.fst applied) hasKind
      exact ⟨_, _, .unary elaborated defined, resultKind⟩
  | binary operator left right leftHypothesis rightHypothesis =>
      intro depth state final value noneLogical evaluated literals
      have inside := Algebra.lt_limit_of_interpret_eq_ok evaluated
      have noneInLeft : Token.NoneLogical left.tokens :=
        noneLogical.subset (by simp [Expression.tokens])
      have noneInRight : Token.NoneLogical right.tokens :=
        noneLogical.subset (by simp [Expression.tokens])
      by_cases isMember : operator = .member
      · subst isMember
        rw [Algebra.interpret, if_neg (Nat.not_le_of_lt inside)] at evaluated
        obtain ⟨owner, middle, taken, selected⟩ :=
          Outcome.andThen_eq_ok_iff.1 evaluated
        obtain ⟨typed, next, elaborated, hasKind⟩ :=
          leftHypothesis noneInLeft taken literals
        obtain ⟨host, name, rfl, rfl, found⟩ :=
          exists_host_of_selectNamed (congrArg Prod.fst selected)
        obtain ⟨type, isTyped, memberKind⟩ := described host name value found
        exact ⟨_, _, .member elaborated hasKind.eq_kind_ofConstant isTyped,
          memberKind⟩
      · rw [Algebra.interpret_binary _ _ isMember _ _
          (Nat.not_le_of_lt inside)] at evaluated
        obtain ⟨first, middle, taken, goesOn⟩ :=
          Outcome.andThen_eq_ok_iff.1 evaluated
        have undecided : (evaluation objects resolver limit).decided? operator
            first = none := by
          cases operator with
          | logical operator =>
              exact absurd List.mem_cons_self (noneLogical operator)
          | _ =>
              rfl
        simp only [undecided] at goesOn
        obtain ⟨second, last, takenRight, applied⟩ :=
          Outcome.andThen_eq_ok_iff.1 goesOn
        obtain ⟨leftTyped, between, leftElaborated, leftKind⟩ :=
          leftHypothesis noneInLeft taken literals
        obtain ⟨rightTyped, next, rightElaborated, rightKind⟩ :=
          rightHypothesis noneInRight takenRight between
        obtain ⟨type, defined, resultKind⟩ := Constant.exists_type_of_apply
          (congrArg Prod.fst applied) leftKind rightKind
        exact ⟨_, _, .binary leftElaborated rightElaborated defined,
          resultKind⟩

/-! ## Compilation -/

/-- A tree without logical operators that has a value under some limit compiles
under every limit that it fits, unless a pool is full, to a type whose kind is
the one of the value: local variables hold values of the kinds of their types,
no other name is known, and the types of members tell of all members. -/
theorem compiles_of_evaluates {locals : LocalMap} {members : MemberTypes}
    {objects : ObjectMembers} {resolver : Resolver σ}
    {binding : String → Constant} (bound : locals.BoundBy binding)
    (answered : resolver.AnswersOnlyFrom locals binding)
    (described : members.Describes objects) {expression : Expression}
    (noneLogical : Token.NoneLogical expression.tokens) {limit : Nat}
    {state : σ} {value : Constant}
    (evaluated : ((evaluation objects resolver limit).reduce limit state
      expression.tokens).result = .ok value)
    {other : Nat} (fits : expression.height ≤ other) :
    (∃ code, Code.ofTokens locals members other expression.tokens =
          .ok code ∧ value.HasKind code.resultType.kind) ∨
      Code.ofTokens locals members other expression.tokens =
        .error .tooManyConstants := by
  have interpreted :=
    (evaluation objects resolver limit).outcome_reduce_tokens limit expression
      state
  rw [Reduction.outcome, evaluated] at interpreted
  obtain ⟨root, literals, elaborated, hasKind⟩ := elaborates_of_evaluates bound
    answered described expression noneLogical interpreted.symm #[]
  have typed : TypedProgram.ofTokens locals members other expression.tokens =
      .ok ⟨root, literals⟩ :=
    TypedProgram.ofTokens_eq_ok_iff.2 ⟨expression, rfl, elaborated, fits⟩
  rw [Code.ofTokens, typed]
  rcases Code.ofTyped_failsOnlyWhenFull
      (TypedProgram.run_failsOnlyWhenFull typed) with
    ⟨code, lowered⟩ | full
  · refine .inl ⟨code, lowered, ?_⟩
    rw [Code.resultType_of_ofTyped lowered]
    exact hasKind
  · exact .inr full

/-- The tokens of `cart.owner + count != null`, where `count` is a wrapper. -/
theorem compiles_of_joined_owner :
    let locals : LocalMap :=
      (LocalMap.empty.insert "cart" 0 ⟨.object "Cart", true⟩).insert "count" 1
        ⟨.primitive (.number .int), true⟩
    let members : MemberTypes :=
      MemberTypes.none.insert "Cart" "owner" ⟨.string, true⟩
    let objects : ObjectMembers := fun host name =>
      if host.className = "Cart" ∧ name = "owner" then some (.string "ada")
      else none
    let binding : String → Constant := fun name =>
      if name = "cart" then .object ⟨0, "Cart", "a cart"⟩
      else .number (.int 2)
    let resolver : Resolver Nat := fun name asked =>
      if name = "cart" ∨ name = "count" then
        (.ok (.constant (binding name)), asked + 1)
      else (.error (.unknownReference name), asked)
    let tree : Expression :=
      .binary (.equality .notEqual)
        (.binary (.arithmetic .add)
          (.binary .member (.operand (.reference "cart"))
            (.operand (.reference "owner")))
          (.operand (.reference "count")))
        (.operand (.constant .null))
    ((evaluation objects resolver 5).reduce 5 0 tree.tokens).result =
        .ok (.boolean true) ∧
      ((∃ code, Code.ofTokens locals members 4 tree.tokens = .ok code ∧
          (Constant.boolean true).HasKind code.resultType.kind) ∨
        Code.ofTokens locals members 4 tree.tokens =
          .error .tooManyConstants) := by
  intro locals members objects binding resolver tree
  have evaluated :
      ((evaluation objects resolver 5).reduce 5 0 tree.tokens).result =
        .ok (.boolean true) := by
    cbv
  have noneLogical : Token.NoneLogical tree.tokens := by
    simp [Token.NoneLogical, tree, Expression.tokens]
  have bound : locals.BoundBy binding := by
    intro name held found
    rw [LocalMap.get_insert, LocalMap.get_insert, LocalMap.get_empty] at found
    split at found
    · rename_i isCount
      cases found
      subst isCount
      rfl
    · split at found
      · rename_i isCart
        cases found
        subst isCart
        rfl
      · cases found
  have answered : resolver.AnswersOnlyFrom locals binding := by
    intro name state operand answer
    simp only [resolver] at answer
    split at answer
    · rename_i isLocal
      cases answer
      refine ⟨rfl, ?_⟩
      rcases isLocal with rfl | rfl <;> exact ⟨_, rfl⟩
    · cases answer
  have described : members.Describes objects := by
    intro host name value found
    simp only [objects] at found
    split at found
    · rename_i isOwner
      cases found
      exact ⟨_, if_pos isOwner, trivial⟩
    · cases found
  exact ⟨evaluated, compiles_of_evaluates bound answered described noneLogical
    evaluated (by decide)⟩

end Formula
