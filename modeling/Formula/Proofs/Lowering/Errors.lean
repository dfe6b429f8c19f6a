import Formula.Proofs.Lowering.Completion
import Formula.Proofs.Reduction.Errors

/-!
# Errors of compilation

Which errors of form the compiler finds in a tree, and what a greater limit
changes. Types do not report such an error and lowering has none, so it comes
from the types of members or from the tree.
-/

namespace Formula

/-- The type of some member is an error. -/
def MemberTypes.Reports (members : MemberTypes) (error : Error) : Prop :=
  ∃ className name, members className name = .error error

/-- Members whose types are entered one after another. -/
inductive MemberTypes.IsTable : MemberTypes → Prop
  | none : IsTable none
  | insert {members : MemberTypes} (isTable : members.IsTable)
      (className name : String) (type : StaticType) :
      IsTable (members.insert className name type)

/-- A table reports nothing but members that are not entered. -/
theorem MemberTypes.IsTable.exists_eq_of_reports {members : MemberTypes}
    {error : Error} (isTable : members.IsTable)
    (reports : members.Reports error) :
    ∃ className name, error = .unknownMember className name := by
  obtain ⟨askedClass, askedName, reported⟩ := reports
  induction isTable with
  | none =>
      cases reported
      exact ⟨askedClass, askedName, rfl⟩
  | insert _ className name type inductionHypothesis =>
      unfold MemberTypes.insert at reported
      split at reported
      · cases reported
      · exact inductionHypothesis reported

namespace TypedExpression

theorem not_isFormal_of_ofUnary {operator : UnaryOperator}
    {operand : TypedExpression} {error : Error}
    (failed : ofUnary operator operand = .error error) :
    ¬ error.IsFormal := by
  intro isFormal
  simp only [ofUnary, StaticType.unary] at failed
  split at failed
  · cases failed
  · cases failed
    cases isFormal

theorem not_isFormal_of_ofBinary {operator : BinaryOperator}
    {left right : TypedExpression} {error : Error}
    (failed : ofBinary operator left right = .error error) :
    ¬ error.IsFormal := by
  intro isFormal
  simp only [ofBinary, StaticType.binary] at failed
  split at failed
  · cases failed
  · cases failed
    cases isFormal

theorem not_isFormal_of_ofOperand {locals : LocalMap} {operand : Operand}
    {literals next : Array Constant} {error : Error}
    (failed : ofOperand locals operand literals = (.error error, next)) :
    ¬ error.IsFormal := by
  intro isFormal
  cases operand with
  | constant value =>
      cases failed
  | reference name =>
      simp only [ofOperand, LocalMap.get] at failed
      split at failed
      · cases failed
      · rename_i unknown
        split at unknown
        · cases unknown
        · cases unknown
          cases failed
          cases isFormal

/-- A selection has an error of form only if the types of members report
it. -/
theorem reports_of_ofMember {members : MemberTypes} {owner : TypedExpression}
    {operand : Operand} {error : Error} (isFormal : error.IsFormal)
    (failed : ofMember members owner operand = .error error) :
    members.Reports error := by
  cases operand with
  | constant value =>
      cases failed
      cases isFormal
  | reference name =>
      simp only [ofMember] at failed
      split at failed
      · rename_i className _
        cases found : members className name with
        | ok type =>
            rw [found] at failed
            cases failed
        | error error =>
            rw [found] at failed
            cases failed
            exact ⟨className, name, found⟩
      · cases failed
        cases isFormal

end TypedExpression

variable {locals : LocalMap} {members : MemberTypes} {limit : Nat}
  {expression : Expression} {error : Error}

/-- An error of form in typing a tree within the limit is reported by the types
of members, or it is that no member is named. -/
theorem TypedProgram.cases_of_ofTokens (isFormal : error.IsFormal)
    (fits : expression.height ≤ limit)
    (failed : TypedProgram.ofTokens locals members limit expression.tokens =
      .error error) :
    members.Reports error ∨
      error = .malformed .missingMemberName ∧
        ¬ expression.NamesMembers := by
  have interpreted := (TypedExpression.typing locals
    members).outcome_reduce_tokens limit expression #[]
  unfold TypedProgram.ofTokens at failed
  cases result : ((TypedExpression.typing locals members).reduce limit #[]
      expression.tokens).result with
  | ok root =>
      simp only [result] at failed
      cases failed
  | error error =>
      simp only [result] at failed
      cases failed
      rw [Reduction.outcome, result] at interpreted
      have raises := Algebra.raises_of_interpret expression
        (by omega : 0 + expression.height ≤ limit) interpreted.symm
      rcases raises.error_cases
          (fun _ _ failed =>
            TypedExpression.not_isFormal_of_ofUnary failed isFormal)
          (fun _ _ _ failed =>
            TypedExpression.not_isFormal_of_ofBinary failed isFormal)
        with ⟨operand, start, _, asked⟩ | ⟨owner, name, selected⟩ | unnamed
      · exact absurd isFormal (TypedExpression.not_isFormal_of_ofOperand asked)
      · exact .inl (TypedExpression.reports_of_ofMember isFormal selected)
      · exact .inr unnamed

/-- An error of form in compiling a tree within the limit is reported by the
types of members, or it is that no member is named. -/
theorem Code.cases_of_ofTokens (isFormal : error.IsFormal)
    (fits : expression.height ≤ limit)
    (failed : Code.ofTokens locals members limit expression.tokens =
      .error error) :
    members.Reports error ∨
      error = .malformed .missingMemberName ∧
        ¬ expression.NamesMembers := by
  cases typed : TypedProgram.ofTokens locals members limit
      expression.tokens with
  | error reported =>
      rw [Code.ofTokens, typed] at failed
      cases failed
      exact TypedProgram.cases_of_ofTokens isFormal fits typed
  | ok program =>
      rw [Code.ofTokens, typed] at failed
      rcases Code.ofTyped_failsOnlyWhenFull
          (TypedProgram.run_failsOnlyWhenFull typed) with
        ⟨code, lowered⟩ | full
      · cases lowered.symm.trans failed
      · cases full.symm.trans failed
        cases isFormal

/-- A tree is typed within a limit as within a greater one, if it is not too
high. -/
theorem TypedProgram.ofTokens_eq_ok_iff_of_le {other : Nat}
    (wider : limit ≤ other) {program : TypedProgram} :
    TypedProgram.ofTokens locals members limit expression.tokens =
        .ok program ↔
      TypedProgram.ofTokens locals members other expression.tokens =
          .ok program ∧ expression.height ≤ limit := by
  rw [ofTokens_eq_ok_iff, ofTokens_eq_ok_iff]
  constructor
  · rintro ⟨tree, tokensEq, elaborated, fits⟩
    obtain rfl := Expression.tokens_injective tokensEq
    exact ⟨⟨expression, rfl, elaborated, Nat.le_trans fits wider⟩, fits⟩
  · rintro ⟨⟨tree, tokensEq, elaborated, _⟩, fits⟩
    obtain rfl := Expression.tokens_injective tokensEq
    exact ⟨expression, rfl, elaborated, fits⟩

/-- A tree is compiled within a limit as within a greater one, if it is not too
high. -/
theorem Code.ofTokens_eq_ok_iff_of_le {other : Nat} (wider : limit ≤ other)
    {code : Code} :
    Code.ofTokens locals members limit expression.tokens = .ok code ↔
      Code.ofTokens locals members other expression.tokens = .ok code ∧
        expression.height ≤ limit := by
  constructor
  · intro compiled
    obtain ⟨program, typed, lowered⟩ :=
      Code.exists_program_of_ofTokens compiled
    obtain ⟨typedWider, fits⟩ :=
      (TypedProgram.ofTokens_eq_ok_iff_of_le wider).1 typed
    rw [Code.ofTokens, typedWider]
    exact ⟨lowered, fits⟩
  · rintro ⟨compiled, fits⟩
    obtain ⟨program, typedWider, lowered⟩ :=
      Code.exists_program_of_ofTokens compiled
    have typed :=
      (TypedProgram.ofTokens_eq_ok_iff_of_le wider).2 ⟨typedWider, fits⟩
    rw [Code.ofTokens, typed]
    exact lowered

end Formula
