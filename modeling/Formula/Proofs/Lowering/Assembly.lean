import Formula.Proofs.Lowering.Arity
import Formula.Proofs.Lowering.Recursion

/-!
# Assembled code

The code of a typed expression as a relation, with the pools that its addresses
refer to. Code keeps its meaning when the pools grow.
-/

namespace Formula

inductive Instruction.Loads (constants : Pool Constant) :
    Instruction → Constant → Prop
  | pooled {index : Address} {value : Constant}
      (found : constants.entries[index.val]? = some value) :
      Loads constants (.loadConstant index) value
  | int {number : BitVec 32} (small : -128 ≤ number.toInt)
      (least : number.toInt < 128) :
      Loads constants (.pushInt (number.truncate 8)) (.number (.int number))
  | boolean (truth : Bool) :
      Loads constants (.pushBoolean truth) (.boolean truth)
  | null : Loads constants .pushNull .null

theorem Instruction.loads_of_immediate? (constants : Pool Constant)
    {value : Constant} {instruction : Instruction}
    (immediate : value.immediate? = some instruction) :
    instruction.Loads constants value := by
  rcases Constant.cases_of_immediate? immediate with
    ⟨_, rfl, ⟨small, least⟩, rfl⟩ | ⟨truth, rfl, rfl⟩ | ⟨rfl, rfl⟩
  · exact .int small least
  · exact .boolean truth
  · exact .null

/-- A list of instructions is the code of a typed expression. -/
inductive Assembles (literals : Array Constant) (constants : Pool Constant)
    (names : Pool String) : TypedExpression → List Instruction → Prop
  | literal {index : Nat} {value : Constant} {instruction : Instruction}
      (isLiteral : literals[index]? = some value)
      (loads : instruction.Loads constants value) (type : StaticType) :
      Assembles literals constants names (.literal index type) [instruction]
  | slot (address : Address) (type : StaticType) :
      Assembles literals constants names (.slot address type)
        [.loadLocal address]
  | unary {operator : UnaryOperator} {operand : TypedExpression}
      {type : StaticType} {body operation : List Instruction}
      (operands : Assembles literals constants names operand body)
      (defined : unaryOperation? operator type = some operation) :
      Assembles literals constants names (.unary operator operand type)
        (body ++ (unboxing operand.type ++ operation))
  | member {owner : TypedExpression} {name : String} {index : Address}
      {body : List Instruction}
      (operands : Assembles literals constants names owner body)
      (found : names.entries[index.val]? = some name) (type : StaticType) :
      Assembles literals constants names (.member owner name type)
        (body ++ [.getMember index])
  | binary {operator : BinaryOperator} {left right : TypedExpression}
      {type : StaticType} {plan : BinaryPlan}
      {leftBody rightBody : List Instruction}
      (leftOperands : Assembles literals constants names left leftBody)
      (rightOperands : Assembles literals constants names right rightBody)
      (planned : BinaryPlan.of? operator left.type right.type type =
        some plan) :
      Assembles literals constants names (.binary operator left right type)
        (leftBody ++ (plan.afterLeft ++ (rightBody ++ (plan.afterRight ++
          plan.operation :: plan.afterOperation))))

theorem Instruction.Loads.within {constants next : Pool Constant}
    {instruction : Instruction} {value : Constant}
    (loads : instruction.Loads constants value)
    (grown : constants.Within next) : instruction.Loads next value := by
  cases loads with
  | pooled found =>
      exact .pooled (grown _ _ found)
  | int small least =>
      exact .int small least
  | boolean truth =>
      exact .boolean truth
  | null =>
      exact .null

theorem Assembles.within {literals : Array Constant}
    {constants nextConstants : Pool Constant} {names nextNames : Pool String}
    {typed : TypedExpression} {body : List Instruction}
    (assembled : Assembles literals constants names typed body)
    (constantsGrown : constants.Within nextConstants)
    (namesGrown : names.Within nextNames) :
    Assembles literals nextConstants nextNames typed body := by
  induction assembled with
  | literal isLiteral loads type =>
      exact .literal isLiteral (loads.within constantsGrown) type
  | slot address type =>
      exact .slot address type
  | unary operands defined inductionHypothesis =>
      exact .unary inductionHypothesis defined
  | member operands found type inductionHypothesis =>
      exact .member inductionHypothesis (namesGrown _ _ found) type
  | binary leftOperands rightOperands planned leftHypothesis
      rightHypothesis =>
      exact .binary leftHypothesis rightHypothesis planned

/-! ## Emitted code -/

namespace Emission

/-- Both pools know the positions of their entries. -/
structure Consistent (emission : Emission) : Prop where
  constants : emission.constants.Consistent
  names : emission.names.Consistent

/-- An emission goes on from another one with further instructions. -/
structure Extends (emission next : Emission) (body : List Instruction) :
    Prop where
  consistent : next.Consistent
  constants : emission.constants.Within next.constants
  names : emission.names.Within next.names
  instructions :
    next.instructions.toList = emission.instructions.toList ++ body

theorem consistent_empty : empty.Consistent :=
  ⟨Pool.consistent_empty, Pool.consistent_empty⟩

theorem Extends.trans {first second third : Emission}
    {body rest : List Instruction} (before : first.Extends second body)
    (after : second.Extends third rest) :
    first.Extends third (body ++ rest) where
  consistent := after.consistent
  constants := before.constants.trans after.constants
  names := before.names.trans after.names
  instructions := by
    rw [after.instructions, before.instructions, List.append_assoc]

theorem extends_emit {emission : Emission} (consistent : emission.Consistent)
    (operands : Nat) (instruction : Instruction) :
    emission.Extends (emission.emit operands instruction) [instruction] where
  consistent := ⟨consistent.constants, consistent.names⟩
  constants := .refl _
  names := .refl _
  instructions := by simp [emit]

theorem extends_convert {emission : Emission}
    (consistent : emission.Consistent) (instructions : List Instruction) :
    emission.Extends (emission.convert instructions) instructions := by
  induction instructions generalizing emission with
  | nil =>
      exact ⟨consistent, .refl _, .refl _, by simp [convert]⟩
  | cons instruction rest inductionHypothesis =>
      have first := extends_emit consistent 1 instruction
      exact first.trans (inductionHypothesis first.consistent)

theorem extends_of_emitPooled {emission next : Emission} {value : Constant}
    (consistent : emission.Consistent)
    (emitted : emission.emitPooled value = .ok next) :
    ∃ instruction : Instruction, instruction.Loads next.constants value ∧
      emission.Extends next [instruction] := by
  unfold emitPooled at emitted
  split at emitted
  · cases emitted
  · cases emitted
  rename_i constants names instructions depth maxDepth _ _
  split at emitted
  · rename_i index grown inserted
    cases emitted
    obtain ⟨grownConsistent, within, found⟩ :=
      Pool.insert_eq_ok consistent.constants inserted
    exact ⟨.loadConstant index, .pooled found,
      ⟨grownConsistent, consistent.names⟩, within, .refl _, by simp [emit]⟩
  · cases emitted

theorem extends_of_emitConstant {emission next : Emission} {value : Constant}
    (consistent : emission.Consistent)
    (emitted : emission.emitConstant value = .ok next) :
    ∃ instruction : Instruction, instruction.Loads next.constants value ∧
      emission.Extends next [instruction] := by
  rw [emitConstant_eq] at emitted
  cases immediate : value.immediate? with
  | some instruction =>
      rw [immediate] at emitted
      cases emitted
      exact ⟨instruction, Instruction.loads_of_immediate? _ immediate,
        extends_emit consistent _ _⟩
  | none =>
      rw [immediate] at emitted
      exact extends_of_emitPooled consistent emitted

theorem extends_of_emitMember {emission next : Emission} {name : String}
    (consistent : emission.Consistent)
    (emitted : emission.emitMember name = .ok next) :
    ∃ index : Address, next.names.entries[index.val]? = some name ∧
      emission.Extends next [.getMember index] := by
  unfold emitMember at emitted
  split at emitted
  split at emitted
  · rename_i index grown inserted
    cases emitted
    obtain ⟨grownConsistent, within, found⟩ :=
      Pool.insert_eq_ok consistent.names inserted
    exact ⟨index, found, ⟨consistent.constants, grownConsistent⟩, .refl _,
      within, by simp [emit]⟩
  · cases emitted

end Emission

/-! ## Generated code -/

/-- Generating code appends the code of the expression. -/
theorem TypedExpression.assembles_of_generate {literals : Array Constant}
    {typed : TypedExpression} :
    ∀ {emission next : Emission}, emission.Consistent →
      typed.generate literals emission = .ok next →
        ∃ body, Assembles literals next.constants next.names typed body ∧
          emission.Extends next body := by
  induction typed with
  | literal index type =>
      intro emission next consistent generated
      simp only [generate] at generated
      split at generated
      · rename_i isLiteral
        obtain ⟨instruction, loads, extended⟩ :=
          Emission.extends_of_emitConstant consistent generated
        exact ⟨_, .literal isLiteral loads type, extended⟩
      · cases generated
  | slot address type =>
      intro emission next consistent generated
      cases generated
      exact ⟨_, .slot address type, Emission.extends_emit consistent _ _⟩
  | unary operator operand type inductionHypothesis =>
      intro emission next consistent generated
      simp only [generate] at generated
      split at generated
      · rename_i operation defined
        obtain ⟨middle, taken, rfl⟩ := Except.map_eq_ok_iff.1 generated
        obtain ⟨body, assembled, extended⟩ :=
          inductionHypothesis consistent taken
        have converted := Emission.extends_convert extended.consistent
          (unboxing operand.type ++ operation)
        exact ⟨_, .unary (assembled.within converted.constants
          converted.names) defined, extended.trans converted⟩
      · cases generated
  | member owner name type inductionHypothesis =>
      intro emission next consistent generated
      simp only [generate] at generated
      obtain ⟨middle, taken, emitted⟩ :=
        Except.bind_eq_ok_iff.1 generated
      obtain ⟨body, assembled, extended⟩ :=
        inductionHypothesis consistent taken
      obtain ⟨index, found, selected⟩ :=
        Emission.extends_of_emitMember extended.consistent emitted
      exact ⟨_, .member (assembled.within selected.constants selected.names)
        found type, extended.trans selected⟩
  | binary operator left right type leftHypothesis rightHypothesis =>
      intro emission next consistent generated
      simp only [generate] at generated
      split at generated
      · rename_i plan planned
        obtain ⟨middle, taken, rest⟩ := Except.bind_eq_ok_iff.1 generated
        obtain ⟨leftBody, leftAssembled, leftExtended⟩ :=
          leftHypothesis consistent taken
        have leftConverted := Emission.extends_convert
          leftExtended.consistent plan.afterLeft
        obtain ⟨last, takenRight, rfl⟩ := Except.map_eq_ok_iff.1 rest
        obtain ⟨rightBody, rightAssembled, rightExtended⟩ :=
          rightHypothesis leftConverted.consistent takenRight
        have rightConverted := Emission.extends_convert
          rightExtended.consistent plan.afterRight
        have operated := Emission.extends_emit rightConverted.consistent
          2 plan.operation
        have converted := Emission.extends_convert operated.consistent
          plan.afterOperation
        have finished := rightConverted.trans (operated.trans converted)
        have continued := leftConverted.trans (rightExtended.trans finished)
        exact ⟨_, .binary
          (leftAssembled.within continued.constants continued.names)
          (rightAssembled.within finished.constants finished.names)
          planned, leftExtended.trans continued⟩
      · cases generated

/-- Compiled code is the code of its typed expression with a return. -/
theorem Code.exists_assembles_of_ofTyped {root : TypedExpression}
    {literals : Array Constant} {code : Code}
    (lowered : Code.ofTyped root literals = .ok code) :
    ∃ (constants : Pool Constant) (names : Pool String)
      (body : List Instruction),
      Assembles literals constants names root body ∧
        code.constants = constants.entries ∧ code.names = names.entries ∧
          code.instructions.toList = body ++ [.return] := by
  obtain ⟨emission, generated, rfl⟩ :=
    Code.exists_emission_of_ofTyped lowered
  obtain ⟨body, assembled, extended⟩ :=
    TypedExpression.assembles_of_generate Emission.consistent_empty generated
  refine ⟨_, _, body, assembled, rfl, rfl, ?_⟩
  simp [extended.instructions, Emission.empty]

end Formula
