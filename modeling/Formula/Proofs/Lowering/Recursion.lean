import Formula.Lowering
import Formula.Proofs.Pool

/-!
# Lowering by recursion

The work list lowers an expression the way a recursion over its parts does:
the operands in order, each with its conversions, and then the operation.
-/

namespace Formula

namespace Except

variable {ε α β : Type} {result : Except ε α} {value : β}

theorem bind_eq_ok_iff {next : α → Except ε β} :
    result.bind next = .ok value ↔
      ∃ first, result = .ok first ∧ next first = .ok value := by
  cases result with
  | error error =>
      simp [Except.bind]
  | ok first =>
      simp [Except.bind]

theorem map_eq_ok_iff {next : α → β} :
    result.map next = .ok value ↔
      ∃ first, result = .ok first ∧ next first = value := by
  cases result with
  | error error =>
      simp [Except.map]
  | ok first =>
      simp [Except.map]

theorem bind_eq_error_iff {next : α → Except ε β} {error : ε} :
    result.bind next = .error error ↔
      result = .error error ∨
        ∃ first, result = .ok first ∧ next first = .error error := by
  cases result with
  | error other =>
      simp [Except.bind]
  | ok first =>
      simp [Except.bind]

theorem map_eq_error_iff {next : α → β} {error : ε} :
    result.map next = .error error ↔ result = .error error := by
  cases result with
  | error other =>
      simp [Except.map]
  | ok first =>
      simp [Except.map]

end Except

namespace Emission

def convert (emission : Emission) (instructions : List Instruction) :
    Emission :=
  instructions.foldl (fun emission instruction => emission.emit 1 instruction)
    emission

end Emission

/-- Emits the code of an expression whose literals are in a table. -/
def TypedExpression.generate (literals : Array Constant) :
    TypedExpression → Emission → Except Error Emission
  | .literal index _, emission =>
      match literals[index]? with
      | some value => emission.emitConstant value
      | none => .error (.malformed .unknownLiteral)
  | .slot address _, emission => .ok (emission.emit 0 (.loadLocal address))
  | .unary operator operand type, emission =>
      match unaryOperation? operator type with
      | some operation =>
          (operand.generate literals emission).map fun emission =>
            emission.convert (unboxing operand.type ++ operation)
      | none => .error (.mismatch (.unary operator) (.one type))
  | .member owner name _, emission =>
      (owner.generate literals emission).bind fun emission =>
        emission.emitMember name
  | .binary operator left right type, emission =>
      match BinaryPlan.of? operator left.type right.type type with
      | some plan =>
          (left.generate literals emission).bind fun emission =>
            (right.generate literals (emission.convert plan.afterLeft)).map
              fun emission =>
                ((emission.convert plan.afterRight).emit 2
                  plan.operation).convert plan.afterOperation
      | none =>
          .error (.mismatch (.binary operator) (.two left.type right.type))

namespace LoweringStep

theorem run_conversions (literals : Array Constant) (emission : Emission)
    (instructions : List Instruction) (steps : List LoweringStep) :
    run literals emission (conversions instructions ++ steps) =
      run literals (emission.convert instructions) steps := by
  induction instructions generalizing emission with
  | nil =>
      rfl
  | cons instruction rest inductionHypothesis =>
      have unfolded :
          conversions (instruction :: rest) ++ steps =
            .emit 1 instruction :: (conversions rest ++ steps) := rfl
      rw [unfolded, run, inductionHypothesis]
      rfl

theorem run_visit_of_ofNode {literals : Array Constant}
    {node : TypedExpression} {first : List LoweringStep}
    (expanded : ofNode literals node = .ok first) (emission : Emission)
    (steps : List LoweringStep) :
    run literals emission (.visit node :: steps) =
      run literals emission (first ++ steps) := by
  rw [run]
  split
  · rename_i expandedAgain
    rw [expanded] at expandedAgain
    cases expandedAgain
    rfl
  · rename_i failed
    rw [expanded] at failed
    cases failed

theorem run_visit_of_ofNode_error {literals : Array Constant}
    {node : TypedExpression} {error : Error}
    (failed : ofNode literals node = .error error) (emission : Emission)
    (steps : List LoweringStep) :
    run literals emission (.visit node :: steps) = .error error := by
  rw [run]
  split
  · rename_i expanded
    rw [failed] at expanded
    cases expanded
  · rename_i failedAgain
    rw [failed] at failedAgain
    cases failedAgain
    rfl

/-- Visiting a node emits its code before the remaining steps are done. -/
theorem run_visit (literals : Array Constant) (node : TypedExpression)
    (emission : Emission) (steps : List LoweringStep) :
    run literals emission (.visit node :: steps) =
      (node.generate literals emission).bind fun emission =>
        run literals emission steps := by
  induction node generalizing emission steps with
  | literal index type =>
      rw [TypedExpression.generate]
      cases found : literals[index]? with
      | none =>
          exact run_visit_of_ofNode_error (by simp [ofNode, found]) _ _
      | some value =>
          rw [run_visit_of_ofNode (by simp only [ofNode, found]; rfl)]
          simp only [List.cons_append, List.nil_append, run]
          cases emission.emitConstant value <;> rfl
  | slot slot type =>
      rw [run_visit_of_ofNode rfl]
      simp only [List.cons_append, List.nil_append, run]
      rfl
  | unary operator operand type inductionHypothesis =>
      rw [TypedExpression.generate]
      cases defined : unaryOperation? operator type with
      | none =>
          exact run_visit_of_ofNode_error (by simp [ofNode, defined]) _ _
      | some operation =>
          rw [run_visit_of_ofNode (by simp only [ofNode, defined]; rfl)]
          rw [List.cons_append, inductionHypothesis]
          cases operand.generate literals emission with
          | error error =>
              rfl
          | ok emission =>
              exact run_conversions _ _ _ _
  | member owner name type inductionHypothesis =>
      rw [TypedExpression.generate, run_visit_of_ofNode rfl]
      rw [List.cons_append, inductionHypothesis]
      cases owner.generate literals emission with
      | error error =>
          rfl
      | ok emission =>
          simp only [Except.bind, List.cons_append, List.nil_append, run]
          cases emission.emitMember name <;> rfl
  | binary operator left right type leftHypothesis rightHypothesis =>
      rw [TypedExpression.generate]
      cases planned :
          BinaryPlan.of? operator left.type right.type type with
      | none =>
          exact run_visit_of_ofNode_error (by simp [ofNode, planned]) _ _
      | some plan =>
          rw [run_visit_of_ofNode (by simp only [ofNode, planned]; rfl)]
          simp only [List.cons_append, List.append_assoc]
          rw [leftHypothesis]
          cases left.generate literals emission with
          | error error =>
              rfl
          | ok emission =>
              simp only [Except.bind]
              rw [run_conversions, rightHypothesis]
              cases right.generate literals
                  (emission.convert plan.afterLeft) with
              | error error =>
                  rfl
              | ok emission =>
                  simp only [Except.bind, Except.map]
                  rw [run_conversions, run, run_conversions]

end LoweringStep

/-- Compiled code is the code of its typed expression with a return. -/
theorem Code.exists_emission_of_ofTyped {root : TypedExpression}
    {literals : Array Constant} {code : Code}
    (lowered : Code.ofTyped root literals = .ok code) :
    ∃ emission, root.generate literals .empty = .ok emission ∧
      code = ⟨emission.constants.entries, emission.names.entries,
        emission.instructions.push .return, root.type,
        emission.maxDepth⟩ := by
  unfold Code.ofTyped at lowered
  rw [LoweringStep.run_visit] at lowered
  cases generated : root.generate literals .empty with
  | error error =>
      rw [generated] at lowered
      cases lowered
  | ok emission =>
      rw [generated] at lowered
      simp only [Except.bind, LoweringStep.run] at lowered
      cases lowered
      exact ⟨emission, rfl, rfl⟩

end Formula
