import Formula.Lowering

/-!
# What instructions take

How many values each instruction takes from the stack, and which instructions
a plan consists of, whatever the types are that it is made for: conversions of
the topmost value around one operation on two.
-/

namespace Formula

/-! ## Instructions -/

namespace Instruction

/-- How many values an instruction takes from the stack; it leaves one. -/
def operands : Instruction → Nat
  | .loadConstant _ | .pushInt _ | .pushBoolean _ | .pushNull
  | .loadLocal _ => 0
  | .unbox _ | .box _ | .convert _ | .negate _ | .complementInt
  | .complementLong | .not | .stringify | .getMember _ | .return => 1
  | .operate _ _ | .compareNumbers _ _ | .compareBooleans _
  | .compareReferences _ | .logical _ | .concatenate => 2

/-- Whether an instruction makes a value of the topmost one alone. -/
def isConversion : Instruction → Bool
  | .unbox _ | .box _ | .convert _ | .negate _ | .complementInt
  | .complementLong | .not | .stringify => true
  | _ => false

/-- Whether an instruction makes a value of the two topmost ones. -/
def isOperation : Instruction → Bool
  | .operate _ _ | .compareNumbers _ _ | .compareBooleans _
  | .compareReferences _ | .logical _ | .concatenate => true
  | _ => false

def OnlyConvert (instructions : List Instruction) : Prop :=
  ∀ instruction ∈ instructions, instruction.isConversion

theorem operands_of_isConversion {instruction : Instruction}
    (converts : instruction.isConversion) : instruction.operands = 1 := by
  cases instruction <;> first | rfl | cases converts

theorem operands_of_isOperation {instruction : Instruction}
    (operates : instruction.isOperation) : instruction.operands = 2 := by
  cases instruction <;> first | rfl | cases operates

theorem onlyConvert_nil : OnlyConvert [] :=
  List.forall_mem_nil _

theorem onlyConvert_singleton {instruction : Instruction}
    (converts : instruction.isConversion) : OnlyConvert [instruction] :=
  List.forall_mem_singleton.2 converts

theorem OnlyConvert.append {first second : List Instruction}
    (before : OnlyConvert first) (after : OnlyConvert second) :
    OnlyConvert (first ++ second) :=
  List.forall_mem_append.2 ⟨before, after⟩

end Instruction

/-! ## Conversions -/

open Instruction (OnlyConvert onlyConvert_nil onlyConvert_singleton)

theorem onlyConvert_unboxing (type : StaticType) :
    OnlyConvert (unboxing type) := by
  unfold unboxing
  split
  · split
    · exact onlyConvert_singleton rfl
    · exact onlyConvert_nil
  · exact onlyConvert_nil

theorem onlyConvert_boxing (type : StaticType) :
    OnlyConvert (boxing type) := by
  unfold boxing
  split
  · split
    · exact onlyConvert_singleton rfl
    · exact onlyConvert_nil
  · exact onlyConvert_nil

theorem onlyConvert_widening (source target : NumericKind) :
    OnlyConvert (widening source target) := by
  unfold widening
  split
  case h_7 =>
      exact onlyConvert_nil
  all_goals exact onlyConvert_singleton rfl

theorem onlyConvert_coercion (type : StaticType) (target : NumericKind) :
    OnlyConvert (coercion type target) := by
  unfold coercion
  split
  · exact (onlyConvert_unboxing type).append (onlyConvert_widening _ target)
  · exact onlyConvert_unboxing type

theorem onlyConvert_stringifying (type : StaticType) :
    OnlyConvert (stringifying type) := by
  unfold stringifying
  split
  · exact onlyConvert_nil
  · exact onlyConvert_singleton rfl

theorem onlyConvert_unaryOperation? {operator : UnaryOperator}
    {type : StaticType} {operation : List Instruction}
    (operated : unaryOperation? operator type = some operation) :
    OnlyConvert operation := by
  unfold unaryOperation? at operated
  split at operated
  · cases operated
    exact onlyConvert_nil
  case h_6 =>
      cases operated
  all_goals
    cases operated
    exact onlyConvert_singleton rfl

/-! ## Plans -/

namespace BinaryPlan

/-- A plan is made of conversions around one operation. -/
structure IsBalanced (plan : BinaryPlan) : Prop where
  afterLeft : OnlyConvert plan.afterLeft
  afterRight : OnlyConvert plan.afterRight
  operation : plan.operation.isOperation
  afterOperation : OnlyConvert plan.afterOperation

variable {left right result : StaticType} {plan : BinaryPlan}

theorem isBalanced_onPrimitives (left right : StaticType)
    {operation : Instruction} (operates : operation.isOperation) :
    (onPrimitives left right operation).IsBalanced :=
  ⟨onlyConvert_unboxing left, onlyConvert_unboxing right, operates,
    onlyConvert_nil⟩

theorem isBalanced_onNumbers (left right : StaticType) (kind : NumericKind)
    {operation : Instruction} (operates : operation.isOperation) :
    (onNumbers left right kind operation).IsBalanced :=
  ⟨onlyConvert_coercion left kind, onlyConvert_coercion right kind, operates,
    onlyConvert_nil⟩

theorem isBalanced_of_operating? {operator : BinaryOperator}
    (planned : operating? operator left right result = some plan) :
    plan.IsBalanced := by
  unfold operating? at planned
  split at planned
  · cases planned
    exact { isBalanced_onNumbers left right _ rfl with
      afterOperation := onlyConvert_boxing result }
  · cases planned
    exact { isBalanced_onPrimitives left right rfl with
      afterOperation := onlyConvert_boxing result }
  · cases planned

theorem isBalanced_of_comparing? {comparison : Comparison}
    (planned : comparing? comparison left right = some plan) :
    plan.IsBalanced := by
  obtain ⟨kind, _, rfl⟩ := Option.map_eq_some_iff.1 planned
  exact isBalanced_onNumbers left right kind rfl

/-- Every plan is balanced. -/
theorem isBalanced_of_of? {operator : BinaryOperator}
    (planned : of? operator left right result = some plan) :
    plan.IsBalanced := by
  cases operator with
  | arithmetic operator =>
      simp only [of?] at planned
      split at planned
      · cases planned
        exact ⟨onlyConvert_stringifying left, onlyConvert_stringifying right,
          rfl, onlyConvert_nil⟩
      split at planned
      · exact isBalanced_of_operating? planned
      · cases planned
  | bitwise operator =>
      exact isBalanced_of_operating? planned
  | shift operator =>
      simp only [of?] at planned
      split at planned
      · cases planned
        refine { isBalanced_onPrimitives left right rfl with
          afterRight := ?_ }
        dsimp only
        split
        · exact (onlyConvert_unboxing right).append (onlyConvert_singleton rfl)
        · exact onlyConvert_unboxing right
      · cases planned
  | equality operator =>
      simp only [of?] at planned
      split at planned
      · exact isBalanced_of_comparing? planned
      · cases planned
        exact isBalanced_onPrimitives left right rfl
      · cases planned
        exact ⟨onlyConvert_nil, onlyConvert_nil, rfl, onlyConvert_nil⟩
      · cases planned
  | relational operator =>
      exact isBalanced_of_comparing? planned
  | logical operator =>
      cases planned
      exact isBalanced_onPrimitives left right rfl
  | member =>
      cases planned

end BinaryPlan

/-! ## Loads and selections -/

namespace Constant

/-- The instruction that a value is part of: that of a truth value, of `null` or
of an integer of one byte. -/
def immediate? : Constant → Option Instruction
  | .number (.int integer) =>
      if -128 ≤ integer.toInt ∧ integer.toInt < 128 then
        some (.pushInt (integer.truncate 8))
      else none
  | .boolean truth => some (.pushBoolean truth)
  | .null => some .pushNull
  | _ => none

theorem immediate?_int (integer : BitVec 32) :
    (Constant.number (.int integer)).immediate? =
      if -128 ≤ integer.toInt ∧ integer.toInt < 128 then
        some (.pushInt (integer.truncate 8))
      else none :=
  rfl

/-- The values that an instruction can hold, each with its instruction. -/
theorem cases_of_immediate? {value : Constant} {instruction : Instruction}
    (immediate : value.immediate? = some instruction) :
    (∃ integer : BitVec 32, value = .number (.int integer) ∧
        (-128 ≤ integer.toInt ∧ integer.toInt < 128) ∧
          instruction = .pushInt (integer.truncate 8)) ∨
      (∃ truth, value = .boolean truth ∧ instruction = .pushBoolean truth) ∨
        value = .null ∧ instruction = .pushNull := by
  cases value with
  | number number =>
      cases number with
      | int integer =>
          rw [immediate?_int] at immediate
          split at immediate
          · rename_i small
            cases immediate
            exact .inl ⟨integer, rfl, small, rfl⟩
          · cases immediate
      | long | float | double =>
          cases immediate
  | boolean truth =>
      cases immediate
      exact .inr (.inl ⟨truth, rfl, rfl⟩)
  | null =>
      cases immediate
      exact .inr (.inr ⟨rfl, rfl⟩)
  | string | object =>
      cases immediate

theorem operands_of_immediate? {value : Constant} {instruction : Instruction}
    (immediate : value.immediate? = some instruction) :
    instruction.operands = 0 := by
  rcases cases_of_immediate? immediate with
    ⟨_, _, _, rfl⟩ | ⟨_, _, rfl⟩ | ⟨_, rfl⟩ <;> rfl

end Constant

namespace Emission

variable {emission next : Emission}

theorem exists_emit_of_emitPooled {value : Constant}
    (emitted : emission.emitPooled value = .ok next) :
    ∃ (constants : Pool Constant) (index : Address),
      next = { emission with constants := constants }.emit 0
        (.loadConstant index) := by
  unfold emitPooled at emitted
  split at emitted
  · cases emitted
  · cases emitted
  split at emitted
  · cases emitted
    exact ⟨_, _, rfl⟩
  · cases emitted

theorem emitConstant_int (emission : Emission) (number : BitVec 32) :
    emission.emitConstant (.number (.int number)) =
      if -128 ≤ number.toInt ∧ number.toInt < 128 then
        .ok (emission.emit 0 (.pushInt (number.truncate 8)))
      else emission.emitPooled (.number (.int number)) :=
  rfl

/-- A value is part of the instruction that loads it, or it is pooled. -/
theorem emitConstant_eq (emission : Emission) (value : Constant) :
    emission.emitConstant value =
      match value.immediate? with
      | some instruction => .ok (emission.emit 0 instruction)
      | none => emission.emitPooled value := by
  cases value with
  | number number =>
      cases number with
      | int number =>
          rw [emitConstant_int, Constant.immediate?_int]
          split <;> rfl
      | long | float | double =>
          rfl
  | boolean | null | string | object =>
      rfl

theorem emitConstant_immediate_or_pooled (emission : Emission)
    (value : Constant) :
    (∃ instruction : Instruction, instruction.operands = 0 ∧
        emission.emitConstant value = .ok (emission.emit 0 instruction)) ∨
      emission.emitConstant value = emission.emitPooled value ∧
        (∀ truth, value ≠ .boolean truth) ∧ value ≠ .null := by
  rw [emitConstant_eq]
  cases immediate : value.immediate? with
  | some instruction =>
      exact .inl ⟨instruction, Constant.operands_of_immediate? immediate, rfl⟩
  | none =>
      refine .inr ⟨rfl, ?_, ?_⟩
      · rintro truth rfl
        cases immediate
      · rintro rfl
        cases immediate

/-- A literal is loaded by one instruction. -/
theorem exists_emit_of_emitConstant {value : Constant}
    (emitted : emission.emitConstant value = .ok next) :
    ∃ (constants : Pool Constant) (instruction : Instruction),
      instruction.operands = 0 ∧
        next = { emission with constants := constants }.emit 0
          instruction := by
  rcases emission.emitConstant_immediate_or_pooled value with
    ⟨instruction, loads, immediate⟩ | ⟨pooled, _, _⟩
  · rw [immediate] at emitted
    obtain rfl := Except.ok.inj emitted
    exact ⟨emission.constants, instruction, loads, rfl⟩
  · rw [pooled] at emitted
    obtain ⟨constants, index, rfl⟩ := exists_emit_of_emitPooled emitted
    exact ⟨constants, .loadConstant index, rfl, rfl⟩

theorem exists_emit_of_emitMember {name : String}
    (emitted : emission.emitMember name = .ok next) :
    ∃ (names : Pool String) (index : Address),
      next = { emission with names := names }.emit 1 (.getMember index) := by
  unfold emitMember at emitted
  split at emitted
  split at emitted
  · cases emitted
    exact ⟨_, _, rfl⟩
  · cases emitted

end Emission

end Formula
