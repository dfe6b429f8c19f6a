import Formula.Proofs.Lowering.Completion
import Formula.Proofs.Machine.Depth

/-!
# The depth that lowering counts

Lowering counts how deep the stack is after each instruction and keeps the
greatest depth. The count is what the instructions do when they are run from
the empty stack, and the greatest depth can be read off the expression.
-/

namespace Formula

/-! ## Counted instructions -/

namespace Emission

structure Counts (emission : Emission) (instruction : Instruction)
    (next : Emission) : Prop where
  instructions : next.instructions = emission.instructions.push instruction
  depth : next.depth = emission.depth - instruction.operands + 1
  maxDepth : next.maxDepth = max emission.maxDepth next.depth

theorem counts_emit (emission : Emission) (instruction : Instruction) :
    emission.Counts instruction
      (emission.emit instruction.operands instruction) :=
  ⟨rfl, rfl, rfl⟩

/-- What is counted is what the instructions do from the empty stack: the depth
after all of them, and the greatest of the depths on the way. -/
structure IsExact (emission : Emission) : Prop where
  depth : Instruction.depthAfter? 0 emission.instructions.toList =
    some emission.depth
  bounded : ∀ before, before <+: emission.instructions.toList →
    ∃ depth ≤ emission.maxDepth,
      Instruction.depthAfter? 0 before = some depth
  attained : ∃ before, before <+: emission.instructions.toList ∧
    Instruction.depthAfter? 0 before = some emission.maxDepth

theorem isExact_empty : empty.IsExact where
  depth := rfl
  bounded := by
    intro before isBefore
    obtain rfl := List.prefix_nil.1 isBefore
    exact ⟨0, Nat.le_refl 0, rfl⟩
  attained := ⟨[], List.prefix_rfl, rfl⟩

/-- Counting an instruction that finds its operands keeps the count exact. -/
theorem IsExact.counts {emission next : Emission} {instruction : Instruction}
    (exact : emission.IsExact) (counts : emission.Counts instruction next)
    (enough : instruction.operands ≤ emission.depth) : next.IsExact := by
  have emitted : next.instructions.toList =
      emission.instructions.toList ++ [instruction] := by
    rw [counts.instructions, Array.toList_push]
  have depth : Instruction.depthAfter? 0 next.instructions.toList =
      some next.depth := by
    rw [emitted, counts.depth]
    exact Instruction.depthAfter?_concat exact.depth enough
  refine ⟨depth, ?_, ?_⟩
  · intro before isBefore
    rw [emitted, List.prefix_concat_iff, ← emitted] at isBefore
    rw [counts.maxDepth]
    rcases isBefore with rfl | isBefore
    · exact ⟨next.depth, Nat.le_max_right _ _, depth⟩
    · obtain ⟨reached, atMost, counted⟩ := exact.bounded before isBefore
      exact ⟨reached, Nat.le_trans atMost (Nat.le_max_left _ _), counted⟩
  · rw [counts.maxDepth]
    rcases Nat.le_total next.depth emission.maxDepth with least | greatest
    · obtain ⟨before, isBefore, counted⟩ := exact.attained
      rw [Nat.max_eq_left least]
      exact ⟨before, isBefore.trans (emitted ▸ List.prefix_append _ _),
        counted⟩
    · rw [Nat.max_eq_right greatest]
      exact ⟨_, List.prefix_rfl, depth⟩

end Emission

namespace LoweringStep

variable {literals : Array Constant}

/-! ## What steps emit -/

/-- A step that emits an instruction counts the values that it takes. -/
def IsFaithful : LoweringStep → Prop
  | .emit operands instruction => instruction.operands = operands
  | .visit _ | .constant _ | .member _ => True

theorem isFaithful_of_mem_conversions {instructions : List Instruction}
    (converts : Instruction.OnlyConvert instructions) {step : LoweringStep}
    (mem : step ∈ conversions instructions) : step.IsFaithful := by
  obtain ⟨instruction, isMember, rfl⟩ := List.mem_map.1 mem
  exact Instruction.operands_of_isConversion (converts instruction isMember)

theorem isFaithful_of_mem_ofNode {node : TypedExpression}
    {steps : List LoweringStep} (expanded : ofNode literals node = .ok steps)
    {step : LoweringStep} (mem : step ∈ steps) : step.IsFaithful := by
  unfold ofNode at expanded
  split at expanded
  · split at expanded <;> cases expanded
    obtain rfl := List.mem_singleton.1 mem
    trivial
  · cases expanded
    obtain rfl := List.mem_singleton.1 mem
    rfl
  · split at expanded
    · rename_i operand type operation operated
      cases expanded
      rcases List.mem_cons.1 mem with rfl | mem
      · trivial
      · exact isFaithful_of_mem_conversions
          ((onlyConvert_unboxing _).append
            (onlyConvert_unaryOperation? operated)) mem
    · cases expanded
  · cases expanded
    simp only [List.mem_cons, List.not_mem_nil, or_false] at mem
    rcases mem with rfl | rfl <;> trivial
  · split at expanded
    · rename_i plan planned
      cases expanded
      have balanced := BinaryPlan.isBalanced_of_of? planned
      simp only [List.cons_append, List.append_assoc, List.mem_cons,
        List.mem_append] at mem
      rcases mem with rfl | mem | rfl | mem | rfl | mem
      · trivial
      · exact isFaithful_of_mem_conversions balanced.afterLeft mem
      · trivial
      · exact isFaithful_of_mem_conversions balanced.afterRight mem
      · exact Instruction.operands_of_isOperation balanced.operation
      · exact isFaithful_of_mem_conversions balanced.afterOperation mem
    · cases expanded

/-- The steps that are left stay faithful. -/
theorem Advances.isFaithful {before after : Emission × List LoweringStep}
    (advances : Advances literals before after)
    (faithful : ∀ step ∈ before.2, step.IsFaithful) :
    ∀ step ∈ after.2, step.IsFaithful := by
  cases advances with
  | emit | constant | member =>
      exact fun step mem => faithful step (List.mem_cons_of_mem _ mem)
  | visit emission expanded steps =>
      intro step mem
      rcases List.mem_append.1 mem with isFirst | isLater
      · exact isFaithful_of_mem_ofNode expanded isFirst
      · exact faithful step (List.mem_cons_of_mem _ isLater)

/-- A step that is done counts an instruction that takes as many values as the
step does, or it emits none. -/
theorem Advances.eq_or_counts {emission next : Emission} {step : LoweringStep}
    {steps rest : List LoweringStep}
    (advances : Advances literals (emission, step :: steps) (next, rest))
    (faithful : step.IsFaithful) :
    next = emission ∨
      ∃ instruction : Instruction, emission.Counts instruction next ∧
        instruction.operands = step.operands := by
  cases advances with
  | emit _ operands instruction =>
      obtain rfl : instruction.operands = operands := faithful
      exact .inr ⟨instruction, emission.counts_emit instruction, rfl⟩
  | constant emitted =>
      obtain ⟨constants, instruction, loads, rfl⟩ :=
        Emission.exists_emit_of_emitConstant emitted
      rw [← loads]
      exact .inr ⟨instruction, ⟨rfl, rfl, rfl⟩, loads⟩
  | member emitted =>
      obtain ⟨names, index, rfl⟩ := Emission.exists_emit_of_emitMember emitted
      exact .inr ⟨.getMember index, ⟨rfl, rfl, rfl⟩, rfl⟩
  | visit =>
      exact .inl rfl

/-! ## Lowering from the start -/

variable {root : TypedExpression}

theorem Reaches.isFaithful {after : Emission × List LoweringStep}
    (reaches : Reaches literals (.empty, [.visit root]) after) :
    ∀ step ∈ after.2, step.IsFaithful := by
  induction reaches with
  | refl =>
      exact List.forall_mem_singleton.2 trivial
  | tail _ advances inductionHypothesis =>
      exact advances.isFaithful inductionHypothesis

/-- The first of the steps that are left counts an instruction that finds its
operands, or it emits none. -/
theorem Reaches.eq_or_counts {emission next : Emission}
    {steps rest : List LoweringStep}
    (reaches : Reaches literals (.empty, [.visit root]) (emission, steps))
    (advances : Advances literals (emission, steps) (next, rest)) :
    next = emission ∨
      ∃ instruction : Instruction, emission.Counts instruction next ∧
        instruction.operands ≤ emission.depth := by
  cases steps with
  | nil =>
      cases advances
  | cons step steps =>
      rcases advances.eq_or_counts
        (reaches.isFaithful step List.mem_cons_self) with
        same | ⟨instruction, counts, operands⟩
      · exact .inl same
      · exact .inr ⟨instruction, counts,
          operands ▸ operands_le_depth_of_reaches reaches⟩

/-- Whatever lowering comes to, it has counted exactly. -/
theorem Reaches.isExact {emission : Emission} {steps : List LoweringStep}
    (reaches : Reaches literals (.empty, [.visit root]) (emission, steps)) :
    emission.IsExact := by
  generalize isAfter : (emission, steps) = after at reaches
  induction reaches generalizing emission steps with
  | refl =>
      cases isAfter
      exact Emission.isExact_empty
  | @tail before after reached advances inductionHypothesis =>
      obtain ⟨before, left⟩ := before
      cases isAfter
      rcases Reaches.eq_or_counts reached advances with
        rfl | ⟨instruction, counts, enough⟩
      · exact inductionHypothesis rfl
      · exact (inductionHypothesis rfl).counts counts enough

/-- Lowering has come through every point of the instructions. -/
theorem Reaches.exists_reaches_of_prefix {emission : Emission}
    {steps : List LoweringStep}
    (reaches : Reaches literals (.empty, [.visit root]) (emission, steps))
    {before : List Instruction}
    (isBefore : before <+: emission.instructions.toList) :
    ∃ middle left,
      Reaches literals (.empty, [.visit root]) (middle, left) ∧
        middle.instructions.toList = before := by
  generalize isAfter : (emission, steps) = after at reaches
  induction reaches generalizing emission steps with
  | refl =>
      cases isAfter
      exact ⟨_, _, .refl, (List.prefix_nil.1 isBefore).symm⟩
  | @tail start after reached advances inductionHypothesis =>
      obtain ⟨start, left⟩ := start
      cases isAfter
      rcases Reaches.eq_or_counts reached advances with
        rfl | ⟨instruction, counts, _⟩
      · exact inductionHypothesis isBefore rfl
      · have whole := isBefore
        rw [counts.instructions, Array.toList_push,
          List.prefix_concat_iff] at isBefore
        rcases isBefore with isWhole | isEarlier
        · exact ⟨_, _, reached.tail advances, by
            rw [counts.instructions, Array.toList_push, isWhole]⟩
        · exact inductionHypothesis isEarlier rfl

/-- What has been emitted stays at the front. -/
theorem Advances.isPrefix {emission next : Emission}
    {steps rest : List LoweringStep}
    (advances : Advances literals (emission, steps) (next, rest)) :
    emission.instructions.toList <+: next.instructions.toList := by
  cases advances with
  | emit _ operands instruction =>
      exact ⟨[instruction], by simp [Emission.emit]⟩
  | constant emitted =>
      obtain ⟨constants, instruction, _, rfl⟩ :=
        Emission.exists_emit_of_emitConstant emitted
      exact ⟨[instruction], by simp [Emission.emit]⟩
  | member emitted =>
      obtain ⟨names, index, rfl⟩ := Emission.exists_emit_of_emitMember emitted
      exact ⟨[.getMember index], by simp [Emission.emit]⟩
  | visit =>
      exact List.prefix_rfl

/-- Lowering that succeeds has come to where no step is left. -/
theorem reaches_of_run {emission final : Emission}
    {steps : List LoweringStep}
    (ran : run literals emission steps = .ok final) :
    Reaches literals (emission, steps) (final, []) ∧
      emission.instructions.toList <+: final.instructions.toList := by
  -- Each step that is done comes before what the rest of the run reaches.
  have goesOn {start next : Emission} {before rest : List LoweringStep}
      (advances : Advances literals (start, before) (next, rest))
      (reached : Reaches literals (next, rest) (final, []) ∧
        next.instructions.toList <+: final.instructions.toList) :
      Reaches literals (start, before) (final, []) ∧
        start.instructions.toList <+: final.instructions.toList :=
    ⟨.head advances reached.1, advances.isPrefix.trans reached.2⟩
  fun_induction run literals emission steps with
  | case1 emission =>
      cases ran
      exact ⟨.refl, List.prefix_rfl⟩
  | case2 emission operands instruction steps inductionHypothesis =>
      exact goesOn (.emit emission operands instruction steps)
        (inductionHypothesis ran)
  | case3 emission value steps next emitted inductionHypothesis =>
      exact goesOn (.constant emitted steps) (inductionHypothesis ran)
  | case5 emission name steps next emitted inductionHypothesis =>
      exact goesOn (.member emitted steps) (inductionHypothesis ran)
  | case7 emission node steps first expanded inductionHypothesis =>
      exact goesOn (.visit emission expanded steps) (inductionHypothesis ran)
  | case4 | case6 | case8 =>
      cases ran

end LoweringStep

/-! ## The depth that an expression needs -/

namespace Emission

/-- One more value is counted, and on the way to it the stack got higher by a
height than it was. -/
structure Grows (emission next : Emission) (height : Nat) : Prop where
  depth : next.depth = emission.depth + 1
  maxDepth : next.maxDepth = max emission.maxDepth (emission.depth + height)

variable {emission middle next : Emission} {height : Nat}

/-- An instruction that takes one value has its result where the value was. -/
theorem Grows.emit_one (grows : emission.Grows next height)
    (positive : 1 ≤ height) (instruction : Instruction) :
    emission.Grows (next.emit 1 instruction) height := by
  obtain ⟨depth, maxDepth⟩ := grows
  constructor
  · simp only [emit]
    omega
  · simp only [emit]
    omega

theorem Grows.convert (grows : emission.Grows next height)
    (positive : 1 ≤ height) (instructions : List Instruction) :
    emission.Grows (next.convert instructions) height := by
  induction instructions generalizing next with
  | nil =>
      exact grows
  | cons instruction rest inductionHypothesis =>
      exact inductionHypothesis (grows.emit_one positive instruction)

/-- The right operand grows on top of the value of the left one. -/
theorem Grows.emit_two {rightHeight : Nat}
    (left : emission.Grows middle height)
    (right : middle.Grows next rightHeight) (positive : 1 ≤ rightHeight)
    (instruction : Instruction) :
    emission.Grows (next.emit 2 instruction)
      (max height (1 + rightHeight)) := by
  obtain ⟨leftDepth, leftMaxDepth⟩ := left
  obtain ⟨rightDepth, rightMaxDepth⟩ := right
  constructor
  · simp only [emit]
    omega
  · simp only [emit]
    omega

end Emission

namespace TypedExpression

/-- How high the stack gets where an expression is evaluated: the right operand
is evaluated on top of the value of the left one. -/
def need : TypedExpression → Nat
  | .literal _ _ | .slot _ _ => 1
  | .unary _ operand _ => operand.need
  | .member owner _ _ => owner.need
  | .binary _ left right _ => max left.need (1 + right.need)

theorem one_le_need (typed : TypedExpression) : 1 ≤ typed.need := by
  induction typed with
  | literal | slot =>
      exact Nat.le_refl 1
  | unary _ _ _ inductionHypothesis | member _ _ _ inductionHypothesis =>
      exact inductionHypothesis
  | binary _ left right _ leftHypothesis _ =>
      exact Nat.le_trans leftHypothesis (Nat.le_max_left _ _)

/-- The code of an expression leaves one value and counts what it needs. -/
theorem grows_of_generate {literals : Array Constant}
    (typed : TypedExpression) :
    ∀ {emission next : Emission},
      typed.generate literals emission = .ok next →
        emission.Grows next typed.need := by
  induction typed with
  | literal index type =>
      intro emission next generated
      rw [generate] at generated
      split at generated
      · obtain ⟨constants, instruction, _, rfl⟩ :=
          Emission.exists_emit_of_emitConstant generated
        exact ⟨rfl, rfl⟩
      · cases generated
  | slot address type =>
      intro emission next generated
      cases generated
      exact ⟨rfl, rfl⟩
  | unary operator operand type inductionHypothesis =>
      intro emission next generated
      rw [generate] at generated
      split at generated
      · obtain ⟨middle, taken, rfl⟩ := Except.map_eq_ok_iff.1 generated
        exact (inductionHypothesis taken).convert operand.one_le_need _
      · cases generated
  | member owner name type inductionHypothesis =>
      intro emission next generated
      rw [generate] at generated
      obtain ⟨middle, taken, emitted⟩ := Except.bind_eq_ok_iff.1 generated
      obtain ⟨names, index, rfl⟩ := Emission.exists_emit_of_emitMember emitted
      have selected := (inductionHypothesis taken).emit_one owner.one_le_need
        (.getMember index)
      exact ⟨selected.depth, selected.maxDepth⟩
  | binary operator left right type leftHypothesis rightHypothesis =>
      intro emission next generated
      rw [generate] at generated
      split at generated
      · rename_i plan _
        obtain ⟨middle, taken, rest⟩ := Except.bind_eq_ok_iff.1 generated
        obtain ⟨last, takenRight, rfl⟩ := Except.map_eq_ok_iff.1 rest
        have leftGrows := (leftHypothesis taken).convert left.one_le_need
          plan.afterLeft
        have rightGrows := (rightHypothesis takenRight).convert
          right.one_le_need plan.afterRight
        have operated := leftGrows.emit_two rightGrows right.one_le_need
          plan.operation
        exact operated.convert
          (one_le_need (.binary operator left right type)) plan.afterOperation
      · cases generated

end TypedExpression

/-! ## Compiled code -/

/-- The depth that compiled code reserves is exact. Lowering comes through
every point of the instructions before the return, and wherever it is, what it
counts is the depth that the instructions so far leave on the empty stack,
which is the depth of every run that comes there. The code reserves the
greatest of these depths, and it is the one that the expression needs. -/
theorem maxStack_exact {root : TypedExpression} {literals : Array Constant}
    {code : Code} (lowered : Code.ofTyped root literals = .ok code) :
    ∃ body : List Instruction,
      code.instructions.toList = body ++ [.return] ∧
        (∀ before, before <+: body → ∃ emission steps,
          LoweringStep.Reaches literals (.empty, [.visit root])
              (emission, steps) ∧
            emission.instructions.toList = before) ∧
        (∀ emission steps,
          LoweringStep.Reaches literals (.empty, [.visit root])
              (emission, steps) →
            emission.instructions.toList <+: body ∧
              Instruction.depthAfter? 0 emission.instructions.toList =
                some emission.depth ∧
              emission.depth ≤ code.maxStack ∧
              ∀ (machine : Machine) (stack : List Constant),
                machine.run emission.instructions.toList [] =
                    .running stack →
                  stack.length = emission.depth) ∧
        (∃ before, before <+: body ∧
          Instruction.depthAfter? 0 before = some code.maxStack) ∧
        code.maxStack = root.need := by
  obtain ⟨final, generated, rfl⟩ := Code.exists_emission_of_ofTyped lowered
  have ran : LoweringStep.run literals .empty [.visit root] = .ok final := by
    rw [LoweringStep.run_visit, generated]
    simp only [Except.bind, LoweringStep.run]
  have finished := (LoweringStep.reaches_of_run ran).1
  have exact := finished.isExact
  refine ⟨final.instructions.toList, Array.toList_push, ?_, ?_,
    exact.attained, ?_⟩
  · exact fun before isBefore => finished.exists_reaches_of_prefix isBefore
  · intro emission steps reaches
    have isBefore : emission.instructions.toList <+:
        final.instructions.toList :=
      (LoweringStep.reaches_of_run (reaches.run_eq.symm.trans ran)).2
    have counted := reaches.isExact.depth
    refine ⟨isBefore, counted, ?_, ?_⟩
    · obtain ⟨depth, atMost, same⟩ := exact.bounded _ isBefore
      obtain rfl := Option.some.inj (counted.symm.trans same)
      exact atMost
    · intro machine stack comes
      have came := Machine.depthAfter?_of_run _ _ comes
      exact Option.some.inj (came.symm.trans counted)
  · -- Nothing was counted before, so the greatest depth is the height.
    have grows := root.grows_of_generate generated
    have fromEmpty : max Emission.empty.maxDepth
        (Emission.empty.depth + root.need) = root.need := by
      simp [Emission.empty]
    exact grows.maxDepth.trans fromEmpty

/-- The tree of `label + cart.total * +count`, whose count is a wrapper. -/
theorem maxStack_of_labelled_total :
    let text : StaticType := .string
    let root : TypedExpression :=
      .binary (.arithmetic .add) (.slot 0 text)
        (.binary (.arithmetic .multiply)
          (.member (.slot 1 ⟨.object "Cart", true⟩) "total" (.number .long))
          (.unary .plus (.slot 2 ⟨.primitive (.number .int), true⟩)
            (.number .int)) (.number .long)) text
    ∃ code, Code.ofTyped root #[] = .ok code ∧
      ∃ body : List Instruction,
        code.instructions.toList = body ++ [.return] ∧
          (∀ before, before <+: body → ∃ emission steps,
            LoweringStep.Reaches #[] (.empty, [.visit root])
                (emission, steps) ∧
              emission.instructions.toList = before) ∧
          (∀ emission steps,
            LoweringStep.Reaches #[] (.empty, [.visit root])
                (emission, steps) →
              emission.instructions.toList <+: body ∧
                Instruction.depthAfter? 0 emission.instructions.toList =
                  some emission.depth ∧
                emission.depth ≤ code.maxStack ∧
                ∀ (machine : Machine) (stack : List Constant),
                  machine.run emission.instructions.toList [] =
                      .running stack →
                    stack.length = emission.depth) ∧
          (∃ before, before <+: body ∧
            Instruction.depthAfter? 0 before = some code.maxStack) ∧
          code.maxStack = root.need := by
  intro text root
  have lowered : Code.ofTyped root #[] =
      .ok ⟨#[], #["total"],
        #[.loadLocal 0, .loadLocal 1, .getMember 0, .loadLocal 2,
          .unbox (.number .int), .convert .intToLong,
          .operate (.number .long) '*'.toUInt8, .stringify, .concatenate,
          .return], text, 3⟩ := by
    simp [root, text, Code.ofTyped, LoweringStep.run, LoweringStep.ofNode,
      LoweringStep.conversions, TypedExpression.type, unaryOperation?,
      BinaryPlan.of?, BinaryPlan.operating?, BinaryPlan.onNumbers,
      BinaryOperator.code?, coercion, unboxing, widening, boxing, stringifying,
      StaticType.isString, StaticType.numeric?, StaticType.primitive?,
      StaticType.number, StaticType.string, Emission.empty, Emission.emit,
      Emission.emitMember, Pool.empty, Pool.insert]
  exact ⟨_, lowered, maxStack_exact lowered⟩

end Formula
