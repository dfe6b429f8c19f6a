import Formula.Evaluation
import Formula.Proofs.Lowering.Assembly
import Formula.Proofs.Machine.Operators
import Formula.Proofs.Typing.Elaboration

/-!
# Compiled code and evaluation

Compiled code runs to the value that evaluation gives, or fails at an
instruction that can fail.
-/

namespace Formula

variable {σ : Type}

/-! ## Environments -/

/-- The slot of every local variable holds an inhabitant of its type. -/
def LocalMap.InhabitedBy (locals : LocalMap) (values : Address → Constant) :
    Prop :=
  ∀ name held, locals.get name = .ok held →
    (values held.slot).Inhabits held.type

/-- A resolver answers for every local variable with the value in its slot. -/
def Resolver.AnswersFromSlots (resolver : Resolver σ) (locals : LocalMap)
    (values : Address → Constant) : Prop :=
  ∀ name held state, locals.get name = .ok held →
    (resolver name state).1 = .ok (.constant (values held.slot))

/-- The members of objects inhabit the types that their classes give them. -/
def MemberTypes.InhabitedBy (members : MemberTypes) (objects : ObjectMembers) :
    Prop :=
  ∀ host name type value, members host.className name = .ok type →
    objects host name = some value → value.Inhabits type

/-! ## Agreement -/

theorem Outcome.agreesWith_andThen {outcome : Outcome σ Constant}
    {next : Constant → σ → Outcome σ Constant} {value result : Constant}
    (agrees : AgreesWith outcome.1 value)
    (goesOn : AgreesWith (next value outcome.2).1 result) :
    AgreesWith (outcome.andThen next).1 result := by
  obtain ⟨taken, state⟩ := outcome
  rcases agrees with succeeded | ⟨error, failed, isUndefined⟩
  · cases succeeded
    exact goesOn
  · cases failed
    exact .inr ⟨error, rfl, isUndefined⟩

theorem eq_boolean_of_agreesWith {operator : LogicalOperator} {left : Bool}
    {right value : Constant}
    (agrees :
      AgreesWith ((Constant.boolean left).apply (.logical operator) right)
        value) :
    ∃ truth, value = .boolean (operator.apply left truth) := by
  cases right with
  | boolean truth =>
      rcases agrees with equality | ⟨_, failed, _⟩
      · cases equality
        exact ⟨truth, rfl⟩
      · cases failed
  | number | string | null | object =>
      rcases agrees with equality | ⟨_, failed, isUndefined⟩
      · cases equality
      · cases failed
        cases isUndefined

/-- What the left side decides agrees with what the operator makes of both
sides. -/
theorem agreesWith_of_decided? {objects : ObjectMembers}
    {resolver : Resolver σ} {limit : Nat} {operator : BinaryOperator}
    {left right result value : Constant}
    (decided :
      (evaluation objects resolver limit).decided? operator left =
        some result)
    (agrees : AgreesWith (left.apply operator right) value) :
    result = value := by
  cases operator with
  | logical operator =>
      simp only [Algebra.decided?, evaluation, Constant.decides?] at decided
      split at decided
      · cases decided
        obtain ⟨truth, rfl⟩ := eq_boolean_of_agreesWith agrees
        rfl
      · cases decided
        obtain ⟨truth, rfl⟩ := eq_boolean_of_agreesWith agrees
        rfl
      · cases decided
  | bitwise | equality | relational | shift | arithmetic | member =>
      cases decided

/-! ## Simulation -/

theorem signExtend_truncate {number : BitVec 32}
    (small : -128 ≤ number.toInt) (least : number.toInt < 128) :
    (number.truncate 8).signExtend 32 = number := by
  apply BitVec.eq_of_toInt_eq
  rw [BitVec.toInt_signExtend_of_le (by decide)]
  have bounded := number.isLt
  simp only [BitVec.toInt_eq_toNat_cond, BitVec.truncate_eq_setWidth,
    BitVec.toNat_setWidth] at *
  omega

theorem Instruction.Loads.step_eq {constants : Pool Constant}
    {instruction : Instruction} {value : Constant}
    (loads : instruction.Loads constants value) {machine : Machine}
    (pooled : machine.constants = constants.entries)
    (stack : List Constant) :
    machine.step instruction stack = .running (value :: stack) := by
  cases loads with
  | pooled found =>
      rename_i index
      have stepped : machine.step (.loadConstant index) stack =
        .pushing stack machine.constants[index.val]? := rfl
      rw [stepped, pooled, found]
      rfl
  | int small least =>
      rename_i number
      have stepped : machine.step (.pushInt (number.truncate 8)) stack =
        .running
          (.number (.int ((number.truncate 8).signExtend 32)) :: stack) := rfl
      rw [stepped, signExtend_truncate small least]
  | boolean | null =>
      rfl

/-- Code leaves on the stack a value of a type, which agrees with what an
expression evaluates to at a depth. -/
def Machine.Simulates (machine : Machine) (resolver : Resolver σ) (limit : Nat)
    (body : List Instruction) (expression : Expression) (depth : Nat)
    (type : StaticType) : Prop :=
  ∀ (state : σ) (stack : List Constant),
    (machine.run body stack).Reaches fun after =>
      ∃ value : Constant, after = value :: stack ∧ value.Inhabits type ∧
        AgreesWith
          ((evaluation machine.members resolver limit).interpret limit
            expression depth state).1 value

namespace Machine.Simulates

variable {machine : Machine} {resolver : Resolver σ} {limit depth : Nat}

theorem unary {operator : UnaryOperator} {inner : Expression}
    {operandType type : StaticType} {body operation : List Instruction}
    (operand : machine.Simulates resolver limit body inner (depth + 1)
      operandType)
    (defined : StaticType.unary? operator operandType = some type)
    (operated : unaryOperation? operator type = some operation)
    (within : depth < limit) :
    machine.Simulates resolver limit
      (body ++ (unboxing operandType ++ operation)) (.unary operator inner)
      depth type := by
  intro state stack
  refine machine.reaches_append (operand state stack) ?_
  rintro _ ⟨value, rfl, inhabits, agrees⟩
  refine (Machine.reaches_unary defined operated inhabits stack).weaken ?_
  rintro _ ⟨result, rfl, hasKind, applied⟩
  refine ⟨result, rfl, .inl hasKind, ?_⟩
  rw [Algebra.interpret, if_neg (by omega)]
  exact Outcome.agreesWith_andThen agrees (.inl applied)

theorem member {index : Address} {name className : String}
    {inner : Expression} {ownerType type : StaticType}
    {body : List Instruction}
    (owner : machine.Simulates resolver limit body inner (depth + 1) ownerType)
    (indexed : machine.names[index.val]? = some name)
    (isObject : ownerType.kind = .object className)
    (held : ∀ (host : HostObject) (value : Constant),
      host.className = className → machine.members host name = some value →
        value.Inhabits type)
    (within : depth < limit) :
    machine.Simulates resolver limit (body ++ [.getMember index])
      (.binary .member inner (.operand (.reference name))) depth type := by
  intro state stack
  refine machine.reaches_append (owner state stack) ?_
  rintro _ ⟨host, rfl, inhabits, agrees⟩
  refine (Machine.reaches_getMember indexed isObject inhabits held
    stack).weaken ?_
  rintro _ ⟨value, rfl, valueInhabits, selected⟩
  refine ⟨value, rfl, valueInhabits, ?_⟩
  rw [Algebra.interpret, if_neg (by omega)]
  exact Outcome.agreesWith_andThen agrees (.inl selected)

theorem binary {operator : BinaryOperator} {first second : Expression}
    {leftType rightType type : StaticType} {plan : BinaryPlan}
    {leftBody rightBody : List Instruction}
    (leftCode : machine.Simulates resolver limit leftBody first (depth + 1)
      leftType)
    (rightCode : machine.Simulates resolver limit rightBody second (depth + 1)
      rightType)
    (defined : StaticType.binary? operator leftType rightType = some type)
    (planned : BinaryPlan.of? operator leftType rightType type = some plan)
    (within : depth < limit) :
    machine.Simulates resolver limit
      (leftBody ++ (plan.afterLeft ++ (rightBody ++ (plan.afterRight ++
        plan.operation :: plan.afterOperation))))
      (.binary operator first second) depth type := by
  intro state stack
  have notMember : operator ≠ .member := by
    rintro rfl
    cases defined
  obtain ⟨leftRelated, rightRelated, preparesLeft, preparesRight,
    operates⟩ := BinaryPlan.computes_of_of? planned defined
  refine machine.reaches_append (leftCode state stack) ?_
  rintro _ ⟨left, rfl, leftInhabits, leftAgrees⟩
  refine machine.reaches_append (preparesLeft left leftInhabits stack) ?_
  rintro _ ⟨leftValue, leftIs, rfl⟩
  refine machine.reaches_append (rightCode
    ((evaluation machine.members resolver limit).interpret limit first
      (depth + 1) state).2 (leftValue :: stack)) ?_
  rintro _ ⟨right, rfl, rightInhabits, rightAgrees⟩
  refine machine.reaches_append
    (preparesRight right rightInhabits (leftValue :: stack)) ?_
  rintro _ ⟨rightValue, rightIs, rfl⟩
  refine (operates left leftValue right rightValue stack leftIs
    rightIs).weaken ?_
  rintro _ ⟨value, rfl, inhabits, agrees⟩
  refine ⟨value, rfl, inhabits, ?_⟩
  rw [Algebra.interpret_binary _ _ notMember _ _ (Nat.not_le.2 within)]
  refine Outcome.agreesWith_andThen leftAgrees ?_
  -- a decided right side is run by the machine but never evaluated
  split
  · rename_i result decided
    exact .inl (by rw [agreesWith_of_decided? decided agrees])
  · exact Outcome.agreesWith_andThen rightAgrees agrees

end Machine.Simulates

/-- The code of an expression that elaborates leaves on the stack what the
expression evaluates to. -/
theorem Elaborates.simulates {locals : LocalMap} {members : MemberTypes}
    (machine : Machine) {resolver : Resolver σ} {limit : Nat}
    (inhabited : locals.InhabitedBy machine.locals)
    (answered : resolver.AnswersFromSlots locals machine.locals)
    (held : members.InhabitedBy machine.members)
    {table : Array Constant} {constants : Pool Constant} {names : Pool String}
    (pooled : machine.constants = constants.entries)
    (named : machine.names = names.entries)
    {literals next : Array Constant} {expression : Expression}
    {typed : TypedExpression}
    (elaborated : Elaborates locals members literals expression typed next) :
    ∀ {body : List Instruction} {depth : Nat},
      Assembles table constants names typed body →
        (∀ (index : Nat) (value : Constant), next[index]? = some value →
          table[index]? = some value) →
          depth + expression.height ≤ limit →
            machine.Simulates resolver limit body expression depth
              typed.type := by
  induction elaborated with
  | literal literals value =>
      intro body depth assembled tabled fits state stack
      simp only [Expression.height] at fits
      cases assembled with
      | literal isLiteral loads type =>
          have inTable := tabled literals.size value (by simp)
          rw [isLiteral] at inTable
          cases inTable
          rw [Machine.run_singleton, loads.step_eq pooled]
          refine .inr ⟨_, rfl, value, rfl, .inl value.hasKind_ofConstant,
            .inl ?_⟩
          rw [Algebra.interpret, if_neg (by omega)]
          simp [evaluation, Resolver.follow]
  | slot literals found =>
      intro body depth assembled tabled fits state stack
      simp only [Expression.height] at fits
      cases assembled with
      | slot address type =>
          refine .inr ⟨_, rfl, _, rfl, inhabited _ _ found, .inl ?_⟩
          rw [Algebra.interpret, if_neg (by omega)]
          obtain ⟨hops, rfl⟩ := Nat.exists_eq_add_of_lt (by omega : 0 < limit)
          exact Resolver.follow_of_answer (answered _ _ state found) _ _
  | unary operands defined inductionHypothesis =>
      intro body depth assembled tabled fits
      simp only [Expression.height] at fits
      cases assembled with
      | unary operandsAssembled operated =>
          have operand := inductionHypothesis operandsAssembled tabled
            (by omega : depth + 1 + _ ≤ limit)
          exact operand.unary defined operated (by omega)
  | @member literals next inner ownerTyped className name type _ isObject found
      inductionHypothesis =>
      intro body depth assembled tabled fits
      simp only [Expression.height] at fits
      cases assembled with
      | member ownerAssembled indexed =>
          have owner := inductionHypothesis ownerAssembled tabled
            (by omega : depth + 1 + _ ≤ limit)
          rw [← named] at indexed
          refine owner.member indexed isObject ?_ (by omega)
          rintro host value rfl isMember
          exact held host name type value found isMember
  | binary leftOperands rightOperands defined leftHypothesis
      rightHypothesis =>
      intro body depth assembled tabled fits
      simp only [Expression.height] at fits
      cases assembled with
      | binary leftAssembled rightAssembled planned =>
          have left := leftHypothesis leftAssembled
            (fun index value isLiteral => tabled index value
              (rightOperands.literals_within isLiteral))
            (by omega : depth + 1 + _ ≤ limit)
          have right := rightHypothesis rightAssembled tabled
            (by omega : depth + 1 + _ ≤ limit)
          exact left.binary right defined planned (by omega)

/-- Compiled code, run on values that inhabit the types of its variables and
members, returns or fails at an instruction that can fail. A value that it
returns inhabits the result type and is the value that the tokens evaluate to,
unless evaluation leaves equality or addition undefined on a reference. -/
theorem run_compiled_agrees {locals : LocalMap} {members : MemberTypes}
    {limit : Nat} {tokens : List Token} {code : Code}
    (compiled : Code.ofTokens locals members limit tokens = .ok code)
    {values : Address → Constant} (inhabited : locals.InhabitedBy values)
    {objects : ObjectMembers} (held : members.InhabitedBy objects)
    {resolver : Resolver σ}
    (answered : resolver.AnswersFromSlots locals values) (state : σ) :
    let progress :=
      (code.machine values objects).run code.instructions.toList []
    let result :=
      ((evaluation objects resolver limit).reduce limit state tokens).result
    ((∃ value, progress = .returned value) ∨
        ∃ instruction, progress = .failed instruction ∧
          instruction.canFail) ∧
      ∀ value, progress = .returned value →
        value.Inhabits code.resultType ∧
          (result = .ok value ∨
            ∃ error, result = .error error ∧
              error.IsUndefinedOnReference) := by
  intro progress result
  obtain ⟨program, typed, lowered⟩ := Code.exists_program_of_ofTokens compiled
  obtain ⟨expression, rfl, elaborated, fits⟩ :=
    TypedProgram.ofTokens_eq_ok_iff.1 typed
  obtain ⟨constants, names, body, assembled, pooled, named, instructions⟩ :=
    Code.exists_assembles_of_ofTyped lowered
  have simulated := elaborated.simulates (code.machine values objects)
    inhabited answered held pooled named assembled
    (fun _ _ isLiteral => isLiteral)
    (by omega : 0 + expression.height ≤ limit) state []
  rw [← Algebra.outcome_reduce_tokens] at simulated
  have progressed : progress =
      ((code.machine values objects).run body []).andThen
        ((code.machine values objects).run [.return]) := by
    rw [← Machine.run_append, ← instructions]
  rw [Code.resultType_of_ofTyped lowered]
  rcases simulated with ⟨instruction, failed, mayFail⟩ |
    ⟨_, running, value, rfl, inhabits, agrees⟩
  · rw [failed] at progressed
    refine ⟨.inr ⟨instruction, progressed, mayFail⟩, fun value returned => ?_⟩
    rw [progressed] at returned
    cases returned
  · rw [running] at progressed
    refine ⟨.inl ⟨value, progressed⟩, fun other returned => ?_⟩
    rw [progressed] at returned
    cases returned
    exact ⟨inhabits, agrees⟩

/-- The tokens of `cart.total + count * 1000`, where `count` is a wrapper. -/
theorem exists_progress_of_compiled_sum :
    let locals : LocalMap :=
      (LocalMap.empty.insert "cart" 0 ⟨.object "Cart", true⟩).insert "count" 1
        ⟨.primitive (.number .int), true⟩
    let members : MemberTypes :=
      MemberTypes.none.insert "Cart" "total" (.number .long)
    let values : Address → Constant := fun slot =>
      if slot = 0 then .object ⟨0, "Cart", "a cart"⟩ else .number (.int 2)
    let objects : ObjectMembers := fun _ _ => some (.number (.long 7))
    let resolver : Resolver Nat := fun name asked =>
      (.ok (.constant (values (if name = "cart" then 0 else 1))), asked + 1)
    let tokens : List Token :=
      [.binary (.arithmetic .add), .binary .member,
        .operand (.reference "cart"), .operand (.reference "total"),
        .binary (.arithmetic .multiply), .operand (.reference "count"),
        .operand (.constant (.number (.int 1000)))]
    ∃ code, Code.ofTokens locals members 3 tokens = .ok code ∧
      let progress :=
        (code.machine values objects).run code.instructions.toList []
      let result :=
        ((evaluation objects resolver 3).reduce 3 0 tokens).result
      ((∃ value, progress = .returned value) ∨
          ∃ instruction, progress = .failed instruction ∧
            instruction.canFail) ∧
        ∀ value, progress = .returned value →
          value.Inhabits code.resultType ∧
            (result = .ok value ∨
              ∃ error, result = .error error ∧
                error.IsUndefinedOnReference) := by
  intro locals members values objects resolver tokens
  have cart : locals.get "cart" = .ok ⟨0, ⟨.object "Cart", true⟩⟩ := rfl
  have count :
      locals.get "count" = .ok ⟨1, ⟨.primitive (.number .int), true⟩⟩ := rfl
  have typed : TypedProgram.ofTokens locals members 3 tokens =
      .ok ⟨.binary (.arithmetic .add)
        (.member (.slot 0 ⟨.object "Cart", true⟩) "total" (.number .long))
        (.binary (.arithmetic .multiply)
          (.slot 1 ⟨.primitive (.number .int), true⟩)
          (.literal 0 (.number .int)) (.number .int)) (.number .long),
        #[.number (.int 1000)]⟩ :=
    TypedProgram.ofTokens_eq_ok_iff.2
      ⟨.binary (.arithmetic .add)
        (.binary .member (.operand (.reference "cart"))
          (.operand (.reference "total")))
        (.binary (.arithmetic .multiply) (.operand (.reference "count"))
          (.operand (.constant (.number (.int 1000))))), rfl,
        .binary (.member (.slot #[] cart) rfl rfl)
          (.binary (.slot #[] count) (.literal #[] _) rfl) rfl, by decide⟩
  have compiled : Code.ofTokens locals members 3 tokens =
      .ok ⟨#[.number (.int 1000)], #["total"],
        #[.loadLocal 0, .getMember 0, .loadLocal 1, .unbox (.number .int),
          .loadConstant 0, .operate (.number .int) '*'.toUInt8,
          .convert .intToLong, .operate (.number .long) '+'.toUInt8, .return],
        .number .long, 3⟩ := by
    simp [Code.ofTokens, typed, Code.ofTyped, LoweringStep.run,
      LoweringStep.ofNode, LoweringStep.conversions, TypedExpression.type,
      BinaryPlan.of?, BinaryPlan.operating?, BinaryPlan.onNumbers,
      BinaryOperator.code?, coercion, unboxing, widening, boxing,
      StaticType.isString, StaticType.numeric?, StaticType.primitive?,
      StaticType.number, Emission.empty, Emission.emit, Emission.emitMember,
      Emission.emitConstant_int, Emission.emitPooled,
      Pool.empty, Pool.insert]
  have inhabited : locals.InhabitedBy values := by
    intro name held found
    rw [LocalMap.get_insert, LocalMap.get_insert, LocalMap.get_empty] at found
    split at found
    · cases found
      exact .inl rfl
    · split at found
      · cases found
        exact .inl rfl
      · cases found
  have answered : resolver.AnswersFromSlots locals values := by
    intro name held state found
    rw [LocalMap.get_insert, LocalMap.get_insert, LocalMap.get_empty] at found
    split at found
    · rename_i isCount
      cases found
      subst isCount
      rfl
    · split at found
      · rename_i isCart
        cases found
        subst isCart
        rfl
      · cases found
  refine ⟨_, compiled, run_compiled_agrees compiled inhabited
    (fun host name type value found isMember => ?_) answered 0⟩
  simp only [members, MemberTypes.insert, MemberTypes.none] at found
  split at found
  · cases found
    cases isMember
    exact .inl rfl
  · cases found

end Formula
