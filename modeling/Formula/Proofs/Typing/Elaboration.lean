import Formula.Lowering
import Formula.Proofs.Reduction.Recursion

/-!
# Elaboration

The typed expression that a tree becomes, as a relation with one rule for each
form. Typing a list of tokens succeeds only with a typed expression that the
relation allows, and only below the limit on nesting.
-/

namespace Formula

/-- A tree becomes a typed expression, and its values are put at the end of a
table of literals. -/
inductive Elaborates (locals : LocalMap) (members : MemberTypes) :
    Array Constant → Expression → TypedExpression → Array Constant → Prop
  | literal (literals : Array Constant) (value : Constant) :
      Elaborates locals members literals (.operand (.constant value))
        (.literal literals.size (.ofConstant value)) (literals.push value)
  | slot (literals : Array Constant) {name : String} {held : Local}
      (found : locals.get name = .ok held) :
      Elaborates locals members literals (.operand (.reference name))
        (.slot held.slot held.type) literals
  | unary {literals next : Array Constant} {operator : UnaryOperator}
      {inner : Expression} {operand : TypedExpression} {type : StaticType}
      (operands : Elaborates locals members literals inner operand next)
      (defined : StaticType.unary? operator operand.type = some type) :
      Elaborates locals members literals (.unary operator inner)
        (.unary operator operand type) next
  | member {literals next : Array Constant} {inner : Expression}
      {owner : TypedExpression} {className name : String} {type : StaticType}
      (operands : Elaborates locals members literals inner owner next)
      (isObject : owner.type.kind = .object className)
      (found : members className name = .ok type) :
      Elaborates locals members literals
        (.binary .member inner (.operand (.reference name)))
        (.member owner name type) next
  | binary {literals middle next : Array Constant}
      {operator : BinaryOperator} {first second : Expression}
      {left right : TypedExpression} {type : StaticType}
      (leftOperands : Elaborates locals members literals first left middle)
      (rightOperands : Elaborates locals members middle second right next)
      (defined :
        StaticType.binary? operator left.type right.type = some type) :
      Elaborates locals members literals (.binary operator first second)
        (.binary operator left right type) next

/-- The literals that are in a table stay in it. -/
theorem Elaborates.literals_within {locals : LocalMap} {members : MemberTypes}
    {literals next : Array Constant} {expression : Expression}
    {typed : TypedExpression}
    (elaborated : Elaborates locals members literals expression typed next)
    {index : Nat} {value : Constant} (found : literals[index]? = some value) :
    next[index]? = some value := by
  induction elaborated with
  | literal literals added =>
      obtain ⟨inside, _⟩ := Array.getElem?_eq_some_iff.1 found
      rw [Array.getElem?_push, if_neg (by omega)]
      exact found
  | slot =>
      exact found
  | unary _ _ inductionHypothesis =>
      exact inductionHypothesis found
  | member _ _ _ inductionHypothesis =>
      exact inductionHypothesis found
  | binary _ _ _ leftHypothesis rightHypothesis =>
      exact rightHypothesis (leftHypothesis found)

/-! ## Inversion -/

namespace StaticType

theorem unary_eq_ok_iff {operator : UnaryOperator}
    {operand type : StaticType} :
    unary operator operand = .ok type ↔
      unary? operator operand = some type := by
  unfold unary
  cases unary? operator operand with
  | none =>
      simp
  | some result =>
      simp

theorem binary_eq_ok_iff {operator : BinaryOperator}
    {left right type : StaticType} :
    binary operator left right = .ok type ↔
      binary? operator left right = some type := by
  unfold binary
  cases binary? operator left right with
  | none =>
      simp
  | some result =>
      simp

end StaticType

namespace TypedExpression

theorem exists_of_ofUnary {operator : UnaryOperator}
    {operand typed : TypedExpression}
    (built : ofUnary operator operand = .ok typed) :
    ∃ type, StaticType.unary? operator operand.type = some type ∧
      typed = .unary operator operand type := by
  unfold ofUnary at built
  cases result : StaticType.unary operator operand.type with
  | error error =>
      rw [result] at built
      cases built
  | ok type =>
      rw [result] at built
      cases built
      exact ⟨type, StaticType.unary_eq_ok_iff.1 result, rfl⟩

theorem exists_of_ofBinary {operator : BinaryOperator}
    {left right typed : TypedExpression}
    (built : ofBinary operator left right = .ok typed) :
    ∃ type, StaticType.binary? operator left.type right.type = some type ∧
      typed = .binary operator left right type := by
  unfold ofBinary at built
  cases result : StaticType.binary operator left.type right.type with
  | error error =>
      rw [result] at built
      cases built
  | ok type =>
      rw [result] at built
      cases built
      exact ⟨type, StaticType.binary_eq_ok_iff.1 result, rfl⟩

/-- A selection that is typed names a member of a class. -/
theorem exists_of_selectNamed {locals : LocalMap} {members : MemberTypes}
    {owner typed : TypedExpression} {right : Expression}
    (built : (typing locals members).selectNamed owner right = .ok typed) :
    ∃ className name type, right = .operand (.reference name) ∧
      owner.type.kind = .object className ∧
        members className name = .ok type ∧
          typed = .member owner name type := by
  cases right with
  | unary | binary =>
      cases built
  | operand operand =>
      cases operand with
      | constant value =>
          cases built
      | reference name =>
          simp only [Algebra.selectNamed, typing, ofMember] at built
          split at built
          · rename_i className isObject
            cases found : members className name with
            | error error =>
                rw [found] at built
                cases built
            | ok type =>
                rw [found] at built
                cases built
                exact ⟨className, name, type, rfl, isObject, found, rfl⟩
          · cases built

/-- Typing that succeeds elaborates, and stays below the limit. -/
theorem elaborates_of_interpret {locals : LocalMap} {members : MemberTypes}
    {limit : Nat} (expression : Expression) :
    ∀ {depth : Nat} {literals next : Array Constant}
      {typed : TypedExpression},
      (typing locals members).interpret limit expression depth literals =
          (.ok typed, next) →
        Elaborates locals members literals expression typed next ∧
          depth + expression.height ≤ limit := by
  induction expression with
  | operand operand =>
      intro depth literals next typed interpreted
      have inside := Algebra.lt_limit_of_interpret_eq_ok interpreted
      rw [Algebra.interpret, if_neg (Nat.not_le_of_lt inside)] at interpreted
      refine ⟨?_, inside⟩
      cases operand with
      | constant value =>
          cases interpreted
          exact .literal literals value
      | reference name =>
          simp only [typing, ofOperand] at interpreted
          split at interpreted
          · cases interpreted
            exact .slot literals (by assumption)
          · cases interpreted
  | unary operator inner inductionHypothesis =>
      intro depth literals next typed interpreted
      have inside := Algebra.lt_limit_of_interpret_eq_ok interpreted
      rw [Algebra.interpret, if_neg (Nat.not_le_of_lt inside)] at interpreted
      obtain ⟨operand, middle, taken, built⟩ :=
        Outcome.andThen_eq_ok_iff.1 interpreted
      obtain ⟨operands, fits⟩ := inductionHypothesis taken
      obtain ⟨typedNode, rfl⟩ := Prod.mk.inj built
      obtain ⟨type, defined, rfl⟩ := exists_of_ofUnary typedNode
      exact ⟨.unary operands defined, by simp only [Expression.height]; omega⟩
  | binary operator left right leftHypothesis rightHypothesis =>
      intro depth literals next typed interpreted
      have inside := Algebra.lt_limit_of_interpret_eq_ok interpreted
      by_cases isMember : operator = .member
      · subst isMember
        rw [Algebra.interpret, if_neg (Nat.not_le_of_lt inside)]
          at interpreted
        obtain ⟨owner, middle, taken, built⟩ :=
          Outcome.andThen_eq_ok_iff.1 interpreted
        obtain ⟨operands, fits⟩ := leftHypothesis taken
        obtain ⟨typedNode, rfl⟩ := Prod.mk.inj built
        obtain ⟨className, name, type, rfl, isObject, found, rfl⟩ :=
          exists_of_selectNamed typedNode
        refine ⟨.member operands isObject found, ?_⟩
        have := Algebra.lt_limit_of_interpret_eq_ok taken
        simp only [Expression.height]
        omega
      · rw [Algebra.interpret_binary _ _ isMember _ _
          (Nat.not_le_of_lt inside)] at interpreted
        obtain ⟨first, middle, taken, rest⟩ :=
          Outcome.andThen_eq_ok_iff.1 interpreted
        have undecided :
            (typing locals members).decided? operator first = none := by
          cases operator <;> rfl
        simp only [undecided] at rest
        obtain ⟨second, last, takenRight, built⟩ :=
          Outcome.andThen_eq_ok_iff.1 rest
        obtain ⟨leftOperands, leftFits⟩ := leftHypothesis taken
        obtain ⟨rightOperands, rightFits⟩ := rightHypothesis takenRight
        obtain ⟨typedNode, rfl⟩ := Prod.mk.inj built
        obtain ⟨type, defined, rfl⟩ := exists_of_ofBinary typedNode
        refine ⟨.binary leftOperands rightOperands defined, ?_⟩
        simp only [Expression.height]
        omega

/-- An expression that elaborates is typed, if it stays below the limit. -/
theorem interpret_of_elaborates {locals : LocalMap} {members : MemberTypes}
    {limit : Nat} {literals next : Array Constant} {expression : Expression}
    {typed : TypedExpression}
    (elaborated : Elaborates locals members literals expression typed next) :
    ∀ {depth : Nat}, depth + expression.height ≤ limit →
      (typing locals members).interpret limit expression depth literals =
        (.ok typed, next) := by
  induction elaborated with
  | literal literals value =>
      intro depth fits
      simp only [Expression.height] at fits
      rw [Algebra.interpret, if_neg (by omega)]
      rfl
  | slot literals found =>
      intro depth fits
      simp only [Expression.height] at fits
      rw [Algebra.interpret, if_neg (by omega)]
      simp only [typing, ofOperand, found]
  | unary operands defined inductionHypothesis =>
      intro depth fits
      simp only [Expression.height] at fits
      rw [Algebra.interpret, if_neg (by omega),
        inductionHypothesis (by omega)]
      simp only [Outcome.andThen, typing, ofUnary, StaticType.unary, defined]
      rfl
  | member operands isObject found inductionHypothesis =>
      intro depth fits
      simp only [Expression.height] at fits
      rw [Algebra.interpret, if_neg (by omega),
        inductionHypothesis (by omega)]
      simp only [Outcome.andThen, Algebra.selectNamed, typing, ofMember,
        isObject, found]
      rfl
  | binary leftOperands rightOperands defined leftHypothesis
      rightHypothesis =>
      intro depth fits
      rename_i operator first second left right type
      have notMember : operator ≠ .member := by
        rintro rfl
        cases defined
      have undecided :
          (typing locals members).decided? operator left = none := by
        cases operator <;> rfl
      simp only [Expression.height] at fits
      rw [Algebra.interpret_binary _ _ notMember _ _ (by omega),
        leftHypothesis (by omega)]
      simp only [Outcome.andThen, undecided]
      rw [rightHypothesis (by omega)]
      simp only [typing, ofBinary, StaticType.binary, defined]
      rfl

end TypedExpression

/-! ## Programs -/

/-- Tokens are typed exactly if they are the listing of a tree that elaborates
and stays below the limit. -/
theorem TypedProgram.ofTokens_eq_ok_iff {locals : LocalMap}
    {members : MemberTypes} {limit : Nat} {tokens : List Token}
    {program : TypedProgram} :
    TypedProgram.ofTokens locals members limit tokens = .ok program ↔
      ∃ expression : Expression, tokens = expression.tokens ∧
        Elaborates locals members #[] expression program.root
          program.literals ∧
          expression.height ≤ limit := by
  constructor
  · intro typed
    unfold TypedProgram.ofTokens at typed
    cases result : ((TypedExpression.typing locals members).reduce limit #[]
        tokens).result with
    | error error =>
        simp only [result] at typed
        cases typed
    | ok root =>
        simp only [result] at typed
        cases typed
        obtain ⟨expression, rfl⟩ :=
          Algebra.exists_eq_tokens_of_reduce _ _ result
        have interpreted := (TypedExpression.typing locals
          members).outcome_reduce_tokens limit expression #[]
        rw [Reduction.outcome, result] at interpreted
        obtain ⟨elaborated, fits⟩ :=
          TypedExpression.elaborates_of_interpret expression interpreted.symm
        exact ⟨expression, rfl, elaborated, by omega⟩
  · rintro ⟨expression, rfl, elaborated, fits⟩
    have interpreted := (TypedExpression.typing locals
      members).outcome_reduce_tokens limit expression #[]
    rw [TypedExpression.interpret_of_elaborates elaborated (by omega)]
      at interpreted
    obtain ⟨result, state⟩ := Prod.mk.inj interpreted
    unfold TypedProgram.ofTokens
    simp only [result, state]
    rfl

/-- Code that was compiled was lowered from a typed program. -/
theorem Code.exists_program_of_ofTokens {locals : LocalMap}
    {members : MemberTypes} {limit : Nat} {tokens : List Token} {code : Code}
    (compiled : Code.ofTokens locals members limit tokens = .ok code) :
    ∃ program, TypedProgram.ofTokens locals members limit tokens =
        .ok program ∧
      Code.ofTyped program.root program.literals = .ok code := by
  unfold Code.ofTokens at compiled
  split at compiled
  · exact ⟨_, by assumption, compiled⟩
  · cases compiled

theorem Code.resultType_of_ofTyped {root : TypedExpression}
    {literals : Array Constant} {code : Code}
    (lowered : Code.ofTyped root literals = .ok code) :
    code.resultType = root.type := by
  unfold Code.ofTyped at lowered
  split at lowered
  · cases lowered
  · cases lowered
    rfl

end Formula
