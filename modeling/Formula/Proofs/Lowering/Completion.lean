import Mathlib.Logic.Relation
import Formula.Proofs.Lowering.Assembly
import Formula.Proofs.Lowering.Plans
import Formula.Proofs.Typing.Elaboration

/-!
# Lowering what is typed

Typing finds every error but one: an expression that is typed is lowered to
code unless a pool is full. On the way the depth that lowering keeps count of
is never less than the number of operands that a step takes from it.
-/

namespace Formula

/-! ## Full pools -/

/-- There is a result, or a pool is full. -/
def FailsOnlyWhenFull {α : Type} (result : Except Error α) : Prop :=
  (∃ value, result = .ok value) ∨ result = .error .tooManyConstants

namespace FailsOnlyWhenFull

variable {α β : Type}

theorem ok (value : α) : FailsOnlyWhenFull (.ok value) :=
  .inl ⟨value, rfl⟩

theorem bind {result : Except Error α} {next : α → Except Error β}
    (first : FailsOnlyWhenFull result)
    (goesOn : ∀ value, FailsOnlyWhenFull (next value)) :
    FailsOnlyWhenFull (result.bind next) := by
  rcases first with ⟨value, rfl⟩ | rfl
  · exact goesOn value
  · exact .inr rfl

theorem map {result : Except Error α} (first : FailsOnlyWhenFull result)
    (next : α → β) : FailsOnlyWhenFull (result.map next) := by
  rcases first with ⟨value, rfl⟩ | rfl
  · exact .ok (next value)
  · exact .inr rfl

theorem eq_of_eq_error {result : Except Error α} {error : Error}
    (full : FailsOnlyWhenFull result) (failed : result = .error error) :
    error = .tooManyConstants := by
  subst failed
  rcases full with ⟨value, succeeds⟩ | full
  · cases succeeds
  · exact Except.error.inj full

end FailsOnlyWhenFull

theorem Pool.insert_failsOnlyWhenFull {α : Type} [BEq α] [Hashable α]
    (pool : Pool α) (entry : α) : FailsOnlyWhenFull (pool.insert entry) := by
  obtain ⟨entries, positions⟩ := pool
  simp only [insert]
  split
  · exact .ok _
  · split
    · exact .ok _
    · exact .inr rfl

namespace Emission

/-- Only truth values and `null` are kept out of the pool. -/
theorem emitPooled_failsOnlyWhenFull (emission : Emission) {value : Constant}
    (notBoolean : ∀ truth, value ≠ .boolean truth) (notNull : value ≠ .null) :
    FailsOnlyWhenFull (emission.emitPooled value) := by
  unfold emitPooled
  split
  · exact absurd rfl (notBoolean _)
  · exact absurd rfl notNull
  rename_i constants names instructions depth maxDepth _ _
  rcases constants.insert_failsOnlyWhenFull value with ⟨_, inserted⟩ | full
  · simp only [inserted]
    exact .ok _
  · simp only [full]
    exact .inr rfl

theorem emitConstant_failsOnlyWhenFull (emission : Emission)
    (value : Constant) : FailsOnlyWhenFull (emission.emitConstant value) := by
  rcases emission.emitConstant_immediate_or_pooled value with
    ⟨instruction, _, immediate⟩ | ⟨pooled, notBoolean, notNull⟩
  · rw [immediate]
    exact .ok _
  · rw [pooled]
    exact emission.emitPooled_failsOnlyWhenFull notBoolean notNull

theorem emitMember_failsOnlyWhenFull (emission : Emission) (name : String) :
    FailsOnlyWhenFull (emission.emitMember name) := by
  obtain ⟨constants, names, instructions, depth, maxDepth⟩ := emission
  unfold emitMember
  rcases names.insert_failsOnlyWhenFull name with ⟨_, inserted⟩ | full
  · simp only [inserted]
    exact .ok _
  · simp only [full]
    exact .inr rfl

end Emission

/-- The code of an expression that elaborates is generated unless a pool is
full. -/
theorem Elaborates.generate_failsOnlyWhenFull {locals : LocalMap}
    {members : MemberTypes} {table literals next : Array Constant}
    {expression : Expression} {typed : TypedExpression}
    (elaborated : Elaborates locals members literals expression typed next)
    (tabled : ∀ (index : Nat) (value : Constant),
      next[index]? = some value → table[index]? = some value) :
    ∀ emission, FailsOnlyWhenFull (typed.generate table emission) := by
  induction elaborated with
  | literal literals value =>
      intro emission
      have inTable := tabled literals.size value (by simp)
      simp only [TypedExpression.generate, inTable]
      exact emission.emitConstant_failsOnlyWhenFull value
  | slot =>
      intro emission
      exact .ok _
  | unary operands defined inductionHypothesis =>
      intro emission
      obtain ⟨operation, operated, _⟩ := UnaryOperator.exists_suits defined
      simp only [TypedExpression.generate, operated]
      exact (inductionHypothesis tabled emission).map _
  | member operands isObject found inductionHypothesis =>
      intro emission
      simp only [TypedExpression.generate]
      exact (inductionHypothesis tabled emission).bind fun emission =>
        emission.emitMember_failsOnlyWhenFull _
  | binary leftOperands rightOperands defined leftHypothesis
      rightHypothesis =>
      intro emission
      obtain ⟨plan, planned, _⟩ := BinaryPlan.exists_suits defined
      have left := leftHypothesis (fun index value isLiteral =>
        tabled index value (rightOperands.literals_within isLiteral)) emission
      simp only [TypedExpression.generate, planned]
      exact left.bind fun emission =>
        (rightHypothesis tabled (emission.convert plan.afterLeft)).map _

/-! ## Steps and their operands -/

namespace LoweringStep

/-- The first of the steps that are left is done. -/
inductive Advances (literals : Array Constant) :
    Emission × List LoweringStep → Emission × List LoweringStep → Prop
  | emit (emission : Emission) (operands : Nat) (instruction : Instruction)
      (steps : List LoweringStep) :
      Advances literals (emission, .emit operands instruction :: steps)
        (emission.emit operands instruction, steps)
  | constant {emission next : Emission} {value : Constant}
      (emitted : emission.emitConstant value = .ok next)
      (steps : List LoweringStep) :
      Advances literals (emission, .constant value :: steps) (next, steps)
  | member {emission next : Emission} {name : String}
      (emitted : emission.emitMember name = .ok next)
      (steps : List LoweringStep) :
      Advances literals (emission, .member name :: steps) (next, steps)
  | visit (emission : Emission) {node : TypedExpression}
      {first : List LoweringStep} (expanded : ofNode literals node = .ok first)
      (steps : List LoweringStep) :
      Advances literals (emission, .visit node :: steps)
        (emission, first ++ steps)

/-- As long as steps are left, one is done or lowering fails. -/
theorem exists_advances_or_fails (literals : Array Constant)
    (emission : Emission) (step : LoweringStep) (steps : List LoweringStep) :
    (∃ after, Advances literals (emission, step :: steps) after) ∨
      ∃ error, run literals emission (step :: steps) = .error error := by
  cases step with
  | visit node =>
      cases expanded : ofNode literals node with
      | ok first =>
          exact .inl ⟨_, .visit emission expanded steps⟩
      | error error =>
          right
          rw [run]
          split
          · simp_all
          · exact ⟨_, rfl⟩
  | emit operands instruction =>
      exact .inl ⟨_, .emit emission operands instruction steps⟩
  | constant value =>
      cases emitted : emission.emitConstant value with
      | ok next =>
          exact .inl ⟨_, .constant emitted steps⟩
      | error error =>
          simp [run, emitted]
  | member name =>
      cases emitted : emission.emitMember name with
      | ok next =>
          exact .inl ⟨_, .member emitted steps⟩
      | error error =>
          simp [run, emitted]

/-- Some of the steps that are left are done. -/
def Reaches (literals : Array Constant) :
    Emission × List LoweringStep → Emission × List LoweringStep → Prop :=
  Relation.ReflTransGen (Advances literals)

variable {literals : Array Constant}

theorem Advances.run_eq {before after : Emission × List LoweringStep}
    (advances : Advances literals before after) :
    run literals before.1 before.2 = run literals after.1 after.2 := by
  cases advances with
  | emit =>
      rw [run]
  | constant emitted | member emitted =>
      simp only [run, emitted]
  | visit emission expanded steps =>
      exact run_visit_of_ofNode expanded emission steps

/-- Lowering goes through what its steps reach. -/
theorem Reaches.run_eq {before after : Emission × List LoweringStep}
    (reaches : Reaches literals before after) :
    run literals before.1 before.2 = run literals after.1 after.2 := by
  induction reaches with
  | refl =>
      rfl
  | tail _ advances inductionHypothesis =>
      exact inductionHypothesis.trans advances.run_eq

/-- How many values a step takes from the stack; every step leaves one. -/
def operands : LoweringStep → Nat
  | .emit operands _ => operands
  | .member _ => 1
  | .visit _ | .constant _ => 0

/-- The depth of the stack after steps that find their operands on it. -/
def depthAfter? : Nat → List LoweringStep → Option Nat
  | depth, [] => some depth
  | depth, step :: steps =>
      if step.operands ≤ depth then
        depthAfter? (depth - step.operands + 1) steps
      else none

theorem depthAfter?_conversions (instructions : List Instruction)
    (depth : Nat) (steps : List LoweringStep) :
    depthAfter? (depth + 1) (conversions instructions ++ steps) =
      depthAfter? (depth + 1) steps := by
  induction instructions with
  | nil =>
      rfl
  | cons instruction rest inductionHypothesis =>
      have enough : 1 ≤ depth + 1 := Nat.le_add_left 1 depth
      exact (if_pos enough).trans inductionHypothesis

/-- The steps of a node leave one value, like the visit that they replace. -/
theorem depthAfter?_ofNode {node : TypedExpression}
    {first : List LoweringStep} (expanded : ofNode literals node = .ok first)
    (depth : Nat) (steps : List LoweringStep) :
    depthAfter? depth (first ++ steps) = depthAfter? (depth + 1) steps := by
  have visited (node : TypedExpression) (depth : Nat)
      (steps : List LoweringStep) :
      depthAfter? depth (.visit node :: steps) =
        depthAfter? (depth + 1) steps :=
    if_pos (Nat.zero_le depth)
  cases node with
  | literal index type =>
      simp only [ofNode] at expanded
      split at expanded
      · cases expanded
        exact if_pos (Nat.zero_le depth)
      · cases expanded
  | slot =>
      cases expanded
      exact if_pos (Nat.zero_le depth)
  | unary operator inner type =>
      simp only [ofNode] at expanded
      split at expanded
      · cases expanded
        rw [List.cons_append, visited, depthAfter?_conversions]
      · cases expanded
  | member owner name type =>
      cases expanded
      have enough : 1 ≤ depth + 1 := Nat.le_add_left 1 depth
      exact (visited owner depth _).trans (if_pos enough)
  | binary operator left right type =>
      simp only [ofNode] at expanded
      split at expanded
      · cases expanded
        have enough : 2 ≤ depth + 1 + 1 := Nat.le_add_left 2 depth
        simp only [List.cons_append, List.append_assoc]
        rw [visited, depthAfter?_conversions, visited,
          depthAfter?_conversions]
        exact (if_pos enough).trans (depthAfter?_conversions _ _ _)
      · cases expanded

theorem depth_of_emitConstant {emission next : Emission} {value : Constant}
    (emitted : emission.emitConstant value = .ok next) :
    next.depth = emission.depth + 1 := by
  obtain ⟨_, _, _, rfl⟩ := Emission.exists_emit_of_emitConstant emitted
  rfl

theorem depth_of_emitMember {emission next : Emission} {name : String}
    (emitted : emission.emitMember name = .ok next) :
    next.depth = emission.depth - 1 + 1 := by
  obtain ⟨_, _, rfl⟩ := Emission.exists_emit_of_emitMember emitted
  rfl

/-- The depth at which the steps that are left will end stays the same. -/
theorem Advances.depthAfter?_eq {before after : Emission × List LoweringStep}
    (advances : Advances literals before after) {final : Nat}
    (ends : depthAfter? before.1.depth before.2 = some final) :
    depthAfter? after.1.depth after.2 = some final := by
  cases advances with
  | emit emission operands instruction steps =>
      simp only [depthAfter?] at ends
      split at ends
      · exact ends
      · cases ends
  | constant emitted steps =>
      rw [depth_of_emitConstant emitted]
      exact (if_pos (Nat.zero_le _)).symm.trans ends
  | member emitted steps =>
      rw [depth_of_emitMember emitted]
      simp only [depthAfter?] at ends
      split at ends
      · exact ends
      · cases ends
  | visit emission expanded steps =>
      rw [depthAfter?_ofNode expanded]
      exact (if_pos (Nat.zero_le _)).symm.trans ends

theorem Reaches.depthAfter?_eq {before after : Emission × List LoweringStep}
    (reaches : Reaches literals before after) {final : Nat}
    (ends : depthAfter? before.1.depth before.2 = some final) :
    depthAfter? after.1.depth after.2 = some final := by
  induction reaches with
  | refl =>
      exact ends
  | tail _ advances inductionHypothesis =>
      exact advances.depthAfter?_eq inductionHypothesis

/-- No step that lowering comes to takes more than the depth counts. -/
theorem operands_le_depth_of_reaches {root : TypedExpression}
    {emission : Emission} {step : LoweringStep} {steps : List LoweringStep}
    (reaches : Reaches literals (.empty, [.visit root])
      (emission, step :: steps)) :
    step.operands ≤ emission.depth := by
  have ends : depthAfter? emission.depth (step :: steps) = some 1 :=
    reaches.depthAfter?_eq rfl
  simp only [depthAfter?] at ends
  split at ends
  · assumption
  · cases ends

end LoweringStep

/-! ## Typed programs -/

theorem TypedProgram.run_failsOnlyWhenFull {locals : LocalMap}
    {members : MemberTypes} {limit : Nat} {tokens : List Token}
    {program : TypedProgram}
    (typed : ofTokens locals members limit tokens = .ok program) :
    FailsOnlyWhenFull
      (LoweringStep.run program.literals .empty [.visit program.root]) := by
  obtain ⟨expression, _, elaborated, _⟩ := ofTokens_eq_ok_iff.1 typed
  have generated := elaborated.generate_failsOnlyWhenFull
    (fun _ _ isLiteral => isLiteral) .empty
  rw [LoweringStep.run_visit]
  refine generated.bind fun emission => ?_
  rw [LoweringStep.run]
  exact .ok emission

theorem Code.ofTyped_failsOnlyWhenFull {root : TypedExpression}
    {literals : Array Constant}
    (lowered : FailsOnlyWhenFull
      (LoweringStep.run literals .empty [.visit root])) :
    FailsOnlyWhenFull (ofTyped root literals) := by
  unfold ofTyped
  rcases lowered with ⟨emission, succeeds⟩ | full
  · rw [succeeds]
    exact .ok _
  · rw [full]
    exact .inr rfl

/-- A typed program is lowered to code unless a pool is full: all other errors
are found before an instruction is emitted. Whatever step the lowering goes
through, at least as many values are counted on the stack as the step takes,
and the step is done unless a pool is full. -/
theorem lowering_of_typed_program {locals : LocalMap} {members : MemberTypes}
    {limit : Nat} {tokens : List Token} {program : TypedProgram}
    (typed : TypedProgram.ofTokens locals members limit tokens =
      .ok program) :
    ((∃ code, Code.ofTyped program.root program.literals = .ok code) ∨
        Code.ofTyped program.root program.literals =
          .error .tooManyConstants) ∧
      ∀ emission step steps,
        LoweringStep.Reaches program.literals
            (.empty, [.visit program.root]) (emission, step :: steps) →
          LoweringStep.run program.literals .empty [.visit program.root] =
              LoweringStep.run program.literals emission (step :: steps) ∧
            step.operands ≤ emission.depth ∧
              ((∃ after, LoweringStep.Advances program.literals
                  (emission, step :: steps) after) ∨
                Code.ofTyped program.root program.literals =
                  .error .tooManyConstants) := by
  have lowered := TypedProgram.run_failsOnlyWhenFull typed
  refine ⟨Code.ofTyped_failsOnlyWhenFull lowered, ?_⟩
  intro emission step steps reaches
  have sameRun := reaches.run_eq
  refine ⟨sameRun, LoweringStep.operands_le_depth_of_reaches reaches, ?_⟩
  rcases LoweringStep.exists_advances_or_fails program.literals emission step
    steps with advances | ⟨error, fails⟩
  · exact .inl advances
  · -- Lowering fails where it has come to, so it fails from the start.
    rcases lowered with ⟨last, succeeds⟩ | full
    · rw [succeeds, fails] at sameRun
      cases sameRun
    · right
      rw [Code.ofTyped, full]

/-- The tokens of `count * 300`, whose number is pooled. -/
theorem lowering_of_scaled_count :
    let locals : LocalMap :=
      LocalMap.empty.insert "count" 0 ⟨.primitive (.number .long), false⟩
    let tokens : List Token :=
      [.binary (.arithmetic .multiply), .operand (.reference "count"),
        .operand (.constant (.number (.int 300)))]
    ∃ program, TypedProgram.ofTokens locals .none 2 tokens = .ok program ∧
      ((∃ code, Code.ofTyped program.root program.literals = .ok code) ∨
        Code.ofTyped program.root program.literals =
          .error .tooManyConstants) ∧
        ∀ emission step steps,
          LoweringStep.Reaches program.literals
              (.empty, [.visit program.root]) (emission, step :: steps) →
            LoweringStep.run program.literals .empty [.visit program.root] =
                LoweringStep.run program.literals emission (step :: steps) ∧
              step.operands ≤ emission.depth ∧
                ((∃ after, LoweringStep.Advances program.literals
                    (emission, step :: steps) after) ∨
                  Code.ofTyped program.root program.literals =
                    .error .tooManyConstants) := by
  intro locals tokens
  have count :
      locals.get "count" = .ok ⟨0, ⟨.primitive (.number .long), false⟩⟩ := rfl
  have typed : TypedProgram.ofTokens locals .none 2 tokens =
      .ok ⟨.binary (.arithmetic .multiply)
        (.slot 0 ⟨.primitive (.number .long), false⟩)
        (.literal 0 ⟨.primitive (.number .int), false⟩)
        ⟨.primitive (.number .long), false⟩, #[.number (.int 300)]⟩ :=
    TypedProgram.ofTokens_eq_ok_iff.2
      ⟨.binary (.arithmetic .multiply) (.operand (.reference "count"))
          (.operand (.constant (.number (.int 300)))), rfl,
        .binary (.slot #[] count) (.literal #[] _) rfl, by decide⟩
  exact ⟨_, typed, lowering_of_typed_program typed⟩

end Formula
