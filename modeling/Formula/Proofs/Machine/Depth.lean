import Formula.Proofs.Lowering.Arity
import Formula.Proofs.Machine

/-!
# The depth of the stack

How deep the stack is after instructions follows from how many values each of
them takes, without the values. A run of the machine that is not over yet has
come to this depth.
-/

namespace Formula

/-! ## The depth after instructions -/

namespace Instruction

/-- The depth of the stack after instructions, from a depth before them, if
each of them finds its operands. -/
def depthAfter? : Nat → List Instruction → Option Nat
  | depth, [] => some depth
  | depth, instruction :: rest =>
      if instruction.operands ≤ depth then
        depthAfter? (depth - instruction.operands + 1) rest
      else none

theorem depthAfter?_append (first second : List Instruction) :
    ∀ depth, depthAfter? depth (first ++ second) =
      (depthAfter? depth first).bind fun middle =>
        depthAfter? middle second := by
  induction first with
  | nil =>
      intro depth
      rfl
  | cons instruction rest inductionHypothesis =>
      intro depth
      rw [List.cons_append, depthAfter?, depthAfter?]
      split
      · exact inductionHypothesis _
      · rfl

/-- An instruction that finds its operands leaves one value in their place. -/
theorem depthAfter?_concat {instructions : List Instruction}
    {instruction : Instruction} {start depth : Nat}
    (before : depthAfter? start instructions = some depth)
    (enough : instruction.operands ≤ depth) :
    depthAfter? start (instructions ++ [instruction]) =
      some (depth - instruction.operands + 1) := by
  rw [depthAfter?_append, before, Option.bind_some, depthAfter?, if_pos enough,
    depthAfter?]

end Instruction

/-! ## Runs of the machine -/

namespace Machine

variable {machine : Machine} {stack next : List Constant}

theorem length_of_pushing {value? : Option Constant}
    (pushed : Progress.pushing stack value? = .running next) :
    next.length = stack.length + 1 := by
  cases value? with
  | none =>
      cases pushed
  | some value =>
      cases pushed
      rfl

theorem length_of_operateNumbers {kind : NumericKind} {code : UInt8}
    {left right : Number}
    (operated : operateNumbers kind code left right stack = .running next) :
    next.length = stack.length + 1 := by
  unfold operateNumbers at operated
  repeat' split at operated
  all_goals first
    | exact length_of_pushing operated
    | cases operated; try rfl

theorem length_of_operateBooleans {code : UInt8} {left right : Bool}
    (operated : operateBooleans code left right stack = .running next) :
    next.length = stack.length + 1 := by
  unfold operateBooleans at operated
  split at operated <;> cases operated
  rfl

theorem length_of_select {index : Address} {owner : Constant}
    (selected : machine.select index owner stack = .running next) :
    next.length = stack.length + 1 := by
  unfold select at selected
  repeat' split at selected
  all_goals cases selected
  rfl

/-- A conversion or a selection takes the topmost value. -/
theorem length_of_step_one {instruction : Instruction} {value : Constant}
    (takesOne : instruction.operands = 1)
    (stepped : machine.step instruction (value :: stack) = .running next) :
    next.length = stack.length + 1 := by
  have ifRunning {holds : Prop} [Decidable holds] {result : Constant}
      {other : Progress} (isOther : other ≠ .running next)
      (chosen : (if holds then .running (result :: stack) else other) =
        .running next) : next.length = stack.length + 1 := by
    split at chosen
    · cases chosen
      rfl
    · exact absurd chosen isOther
  cases instruction with
  | unbox kind =>
      have chosen : (if value = .null then .failed (.unbox kind)
          else if value.kind = .primitive kind then .running (value :: stack)
          else .undefined) = Progress.running next := stepped
      split at chosen
      · cases chosen
      · exact ifRunning (by simp) chosen
  | box kind =>
      exact ifRunning (by simp) stepped
  | convert conversion =>
      cases value with
      | number number =>
          exact length_of_pushing stepped
      | _ =>
          cases stepped
  | negate kind =>
      cases value with
      | number number =>
          exact ifRunning (by simp) stepped
      | _ =>
          cases stepped
  | complementInt | complementLong =>
      cases value with
      | number number =>
          cases number <;> cases stepped
          rfl
      | _ =>
          cases stepped
  | not =>
      cases value <;> cases stepped
      rfl
  | stringify =>
      cases stepped
      rfl
  | getMember index =>
      exact length_of_select stepped
  | «return» =>
      cases stepped
  | _ =>
      cases takesOne

/-- An operation takes the two topmost values. -/
theorem length_of_step_two {instruction : Instruction}
    {left right : Constant} (takesTwo : instruction.operands = 2)
    (stepped : machine.step instruction (right :: left :: stack) =
      .running next) :
    next.length = stack.length + 1 := by
  cases instruction with
  | operate kind code =>
      cases kind with
      | number kind =>
          cases right <;> cases left <;>
            first
              | exact length_of_operateNumbers stepped
              | cases stepped
      | boolean =>
          cases right <;> cases left <;>
            first
              | exact length_of_operateBooleans stepped
              | cases stepped
  | compareNumbers kind comparison =>
      cases right with
      | number right =>
          cases left with
          | number left =>
              have compared : (if left.kind = kind ∧ right.kind = kind then
                  .running (.boolean (comparison.holds
                    (left.pair right).order?) :: stack)
                else .undefined) = Progress.running next := stepped
              split at compared <;> cases compared
              rfl
          | _ =>
              cases stepped
      | _ =>
          cases stepped
  | compareReferences operator =>
      exact length_of_pushing stepped
  | compareBooleans operator | logical operator | concatenate =>
      cases right <;> cases left <;> cases stepped
      rfl
  | _ =>
      cases takesTwo

/-- A load takes nothing. -/
theorem length_of_step_zero {instruction : Instruction}
    (takesNone : instruction.operands = 0)
    (stepped : machine.step instruction stack = .running next) :
    next.length = stack.length + 1 := by
  cases instruction with
  | loadConstant index =>
      exact length_of_pushing stepped
  | pushInt | pushBoolean | pushNull | loadLocal =>
      cases stepped
      rfl
  | _ =>
      cases takesNone

theorem step_nil_ne_running {instruction : Instruction}
    (takes : instruction.operands ≠ 0) :
    machine.step instruction [] ≠ .running next := by
  intro stepped
  cases instruction with
  | operate kind =>
      cases kind <;> cases stepped
  | _ =>
      first | exact takes rfl | cases stepped

theorem step_singleton_ne_running {instruction : Instruction}
    {value : Constant} (takesTwo : instruction.operands = 2) :
    machine.step instruction [value] ≠ .running next := by
  intro stepped
  cases instruction with
  | operate kind =>
      cases kind <;> cases value <;> cases stepped
  | compareNumbers | compareBooleans | logical | concatenate =>
      cases value <;> cases stepped
  | compareReferences =>
      cases stepped
  | _ =>
      cases takesTwo

/-- An instruction that is done has taken its operands and left one value. -/
theorem length_of_step {instruction : Instruction}
    (stepped : machine.step instruction stack = .running next) :
    instruction.operands ≤ stack.length ∧
      next.length = stack.length - instruction.operands + 1 := by
  match takes : instruction.operands with
  | 0 =>
      exact ⟨Nat.zero_le _, length_of_step_zero takes stepped⟩
  | 1 =>
      match stack with
      | [] => exact absurd stepped (step_nil_ne_running (by simp [takes]))
      | value :: stack =>
          exact ⟨Nat.le_add_left 1 _, length_of_step_one takes stepped⟩
  | 2 =>
      match stack with
      | [] => exact absurd stepped (step_nil_ne_running (by simp [takes]))
      | [value] => exact absurd stepped (step_singleton_ne_running takes)
      | right :: left :: stack =>
          exact ⟨Nat.le_add_left 2 _, length_of_step_two takes stepped⟩
  | more + 3 =>
      cases instruction <;> cases takes

/-- A run that is not over yet has come to the depth of its instructions. -/
theorem depthAfter?_of_run (instructions : List Instruction) :
    ∀ stack, machine.run instructions stack = .running next →
      Instruction.depthAfter? stack.length instructions =
        some next.length := by
  induction instructions with
  | nil =>
      intro stack ran
      cases ran
      rfl
  | cons instruction rest inductionHypothesis =>
      intro stack ran
      rw [run] at ran
      cases stepped : machine.step instruction stack with
      | running middle =>
          rw [stepped] at ran
          obtain ⟨enough, length⟩ := length_of_step stepped
          rw [Instruction.depthAfter?, if_pos enough, ← length]
          exact inductionHypothesis middle ran
      | returned | failed | undefined =>
          rw [stepped] at ran
          cases ran

end Machine

end Formula
