import Formula.Proofs.Evaluation.Errors
import Formula.Proofs.Lowering.Errors
import Formula.Proofs.Reduction.Structure

/-!
# Malformed tokens

Evaluation and compilation find the same lists of tokens malformed, for the
same reason, as far as no operator leaves out its right side.
-/

namespace Formula

variable {σ : Type}

/-- Every answer is a value, or an error other than a malformed expression. -/
def Resolver.AnswersPlainly (resolver : Resolver σ) : Prop :=
  ∀ name state,
    (∃ value, (resolver name state).1 = .ok (.constant value)) ∨
      ∃ error, (resolver name state).1 = .error error ∧
        ∀ fault, error ≠ .malformed fault

theorem Resolver.AnswersPlainly.follow_ne_malformed {resolver : Resolver σ}
    (plainly : resolver.AnswersPlainly) (limit hops : Nat) (operand : Operand)
    (state : σ) (fault : StructureFault) :
    (resolver.follow limit (hops + 1) operand state).1 ≠
      .error (.malformed fault) := by
  cases operand with
  | constant value =>
      simp [follow]
  | reference name =>
      rcases plainly name state with
        ⟨value, answered⟩ | ⟨error, refused, notMalformed⟩
      · simp [follow_of_answer answered]
      · intro failed
        have called : resolver name state =
            (.error error, (resolver name state).2) := Prod.ext refused rfl
        rw [follow, called] at failed
        exact notMalformed fault (Except.error.inj failed)

theorem evaluation_neverMalformed (objects : ObjectMembers)
    {resolver : Resolver σ} (plainly : resolver.AnswersPlainly)
    (limit : Nat) :
    (evaluation objects resolver limit).NeverMalformed limit where
  operand := by
    intro positive operand state fault
    obtain ⟨hops, rfl⟩ := Nat.exists_eq_succ_of_ne_zero (by omega : limit ≠ 0)
    exact plainly.follow_ne_malformed _ hops operand state fault
  unary := fun _ _ fault failed =>
    Constant.not_isFormal_of_applyUnary failed (.malformed fault)
  binary := fun _ _ _ fault failed =>
    Constant.not_isFormal_of_apply failed (.malformed fault)
  member := fun _ _ fault failed =>
    Constant.not_isFormal_of_selectOperand failed (.malformed fault)

theorem TypedExpression.typing_neverMalformed (locals : LocalMap)
    {members : MemberTypes}
    (plain : ∀ fault, ¬ members.Reports (.malformed fault)) (limit : Nat) :
    (typing locals members).NeverMalformed limit where
  operand := fun _ _ _ fault failed =>
    not_isFormal_of_ofOperand (Prod.ext failed rfl) (.malformed fault)
  unary := fun _ _ fault failed =>
    not_isFormal_of_ofUnary failed (.malformed fault)
  binary := fun _ _ _ fault failed =>
    not_isFormal_of_ofBinary failed (.malformed fault)
  member := fun _ _ fault failed =>
    plain fault (reports_of_ofMember (.malformed fault) failed)

/-- Compilation finds a list malformed as its structure does: lowering has no
such error. -/
theorem Code.inStep_ofTokens (locals : LocalMap) {members : MemberTypes}
    (plain : ∀ fault, ¬ members.Reports (.malformed fault)) (limit : Nat)
    {tokens : List Token} (noneLogical : Token.NoneLogical tokens) :
    InStep (Code.ofTokens locals members limit tokens)
      (Algebra.structural.reduce limit () tokens).result := by
  have inStep : InStep (TypedProgram.ofTokens locals members limit tokens)
      (Algebra.structural.reduce limit () tokens).result :=
    (Algebra.inStep_reduce
      (TypedExpression.typing_neverMalformed locals plain limit) #[]
      noneLogical).map _
  unfold Code.ofTokens
  cases typed : TypedProgram.ofTokens locals members limit tokens with
  | error error =>
      rw [typed] at inStep
      exact inStep
  | ok program =>
      rw [typed] at inStep
      dsimp only
      rcases Code.ofTyped_failsOnlyWhenFull
          (TypedProgram.run_failsOnlyWhenFull typed) with
        ⟨code, lowered⟩ | full
      · rw [lowered]
        exact inStep
      · rw [full]
        rintro fault ⟨⟩

/-- Where no operator may leave out its right side, evaluation and compilation
agree on what is malformed, as long as neither the resolver nor the types of
members report a malformed expression themselves: when both find a list
malformed, it is for the same fault, and when one of them succeeds, the other
does not find the list malformed. -/
theorem malformed_alike {tokens : List Token}
    (noneLogical : Token.NoneLogical tokens) {members : MemberTypes}
    (plain : ∀ fault, ¬ members.Reports (.malformed fault))
    {resolver : Resolver σ} (plainly : resolver.AnswersPlainly)
    (locals : LocalMap) (objects : ObjectMembers) (limit : Nat) (state : σ) :
    let evaluated :=
      ((evaluation objects resolver limit).reduce limit state tokens).result
    let compiled := Code.ofTokens locals members limit tokens
    (∀ first second, evaluated = .error (.malformed first) →
        compiled = .error (.malformed second) → first = second) ∧
      (∀ value fault, evaluated = .ok value →
        compiled ≠ .error (.malformed fault)) ∧
      ∀ code fault, compiled = .ok code →
        evaluated ≠ .error (.malformed fault) := by
  intro evaluated compiled
  have evaluates := Algebra.inStep_reduce
    (evaluation_neverMalformed objects plainly limit) state noneLogical
  have compiles := Code.inStep_ofTokens locals plain limit noneLogical
  exact ⟨fun _ _ => evaluates.fault_eq compiles,
    fun _ fault succeeds => evaluates.ne_malformed compiles succeeds fault,
    fun _ fault succeeds => compiles.ne_malformed evaluates succeeds fault⟩

/-- The tokens of `cart.(1 + 2)`, where no member is named, and of `-1`
followed by two tokens more. -/
theorem malformed_selection_and_leftOver :
    let locals : LocalMap :=
      LocalMap.empty.insert "cart" 0 ⟨.object "Cart", true⟩
    let resolver : Resolver Nat := fun _ asked =>
      (.ok (.constant (.object ⟨0, "Cart", "a cart"⟩)), asked + 1)
    let evaluate : List Token → Except Error Constant := fun tokens =>
      ((evaluation (fun _ _ => none) resolver 3).reduce 3 0 tokens).result
    let selection : List Token :=
      [.binary .member, .operand (.reference "cart"),
        .binary (.arithmetic .add), .operand (.constant (.number (.int 1))),
        .operand (.constant (.number (.int 2)))]
    let sequence : List Token :=
      [.unary .negate, .operand (.constant (.number (.int 1))),
        .operand (.constant (.number (.int 2))), .unary .not]
    evaluate selection = .error (.malformed .missingMemberName) ∧
      (∀ fault, Code.ofTokens locals .none 3 selection =
        .error (.malformed fault) → fault = .missingMemberName) ∧
      evaluate sequence = .error (.malformed (.leftOver 2)) ∧
      ∀ fault, Code.ofTokens locals .none 3 sequence =
        .error (.malformed fault) → fault = .leftOver 2 := by
  intro locals resolver evaluate selection sequence
  have plain : ∀ fault, ¬ MemberTypes.none.Reports (.malformed fault) := by
    rintro fault ⟨className, name, ⟨⟩⟩
  have plainly : resolver.AnswersPlainly := fun _ _ => .inl ⟨_, rfl⟩
  have noneInSelection : Token.NoneLogical selection := by
    simp [Token.NoneLogical, selection]
  have noneInSequence : Token.NoneLogical sequence := by
    simp [Token.NoneLogical, sequence]
  have unnamed :
      evaluate selection = .error (.malformed .missingMemberName) := by
    unfold evaluate
    cbv
  have leftOver :
      evaluate sequence = .error (.malformed (.leftOver 2)) := by
    unfold evaluate
    cbv
  refine ⟨unnamed, fun fault failed => ?_, leftOver, fun fault failed => ?_⟩
  · exact ((malformed_alike noneInSelection plain plainly locals
      (fun _ _ => none) 3 0).1 _ _ unnamed failed).symm
  · exact ((malformed_alike noneInSequence plain plainly locals
      (fun _ _ => none) 3 0).1 _ _ leftOver failed).symm

end Formula
