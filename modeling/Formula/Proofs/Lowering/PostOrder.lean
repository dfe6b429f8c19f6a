import Formula.Proofs.Lowering.Depth

/-!
# Code in post-order

The code of a typed expression as a recursion over its parts, which hands on
nothing but the pools: the code of the operands, each followed by what converts
it, and then the operation. The work list emits this code, whatever is still to
be done after it.
-/

namespace Formula

/-! ## The recursion -/

structure Pools where
  constants : Pool Constant
  names : Pool String

namespace Pools

def loadPooled (pools : Pools) (value : Constant) :
    Except Error (Instruction × Pools) :=
  (pools.constants.insert value).map fun (index, constants) =>
    (.loadConstant index, ⟨constants, pools.names⟩)

/-- The load of a value: the value is part of the instruction, or it is
pooled. -/
def load (pools : Pools) (value : Constant) :
    Except Error (Instruction × Pools) :=
  match value.immediate? with
  | some instruction => .ok (instruction, pools)
  | none => pools.loadPooled value

def select (pools : Pools) (name : String) :
    Except Error (Instruction × Pools) :=
  (pools.names.insert name).map fun (index, names) =>
    (.getMember index, ⟨pools.constants, names⟩)

end Pools

/-- The code of an expression whose literals are in a table, and the pools after
it: first the code of the operands from left to right, with the conversions of
each one after it, then the operation, and the boxing of its result. -/
def TypedExpression.code (literals : Array Constant) :
    TypedExpression → Pools → Except Error (List Instruction × Pools)
  | .literal index _, pools =>
      match literals[index]? with
      | some value =>
          (pools.load value).map fun (instruction, pools) =>
            ([instruction], pools)
      | none => .error (.malformed .unknownLiteral)
  | .slot address _, pools => .ok ([.loadLocal address], pools)
  | .unary operator operand type, pools =>
      match unaryOperation? operator type with
      | some operation =>
          (operand.code literals pools).map fun (body, pools) =>
            (body ++ unboxing operand.type ++ operation, pools)
      | none => .error (.mismatch (.unary operator) (.one type))
  | .member owner name _, pools =>
      (owner.code literals pools).bind fun (body, pools) =>
        (pools.select name).map fun (instruction, pools) =>
          (body ++ [instruction], pools)
  | .binary operator left right type, pools =>
      match BinaryPlan.of? operator left.type right.type type with
      | some plan =>
          (left.code literals pools).bind fun (leftBody, pools) =>
            (right.code literals pools).map fun (rightBody, pools) =>
              (leftBody ++ plan.afterLeft ++ rightBody ++ plan.afterRight ++
                [plan.operation] ++ boxing type, pools)
      | none =>
          .error (.mismatch (.binary operator) (.two left.type right.type))

/-! ## Emitted code -/

namespace Emission

def pools (emission : Emission) : Pools :=
  ⟨emission.constants, emission.names⟩

/-- Code was emitted that leaves one value, and on the way to it the stack got
higher by `height`. -/
def append (emission : Emission) (height : Nat) :
    List Instruction × Pools → Emission
  | (body, pools) =>
      ⟨pools.constants, pools.names, emission.instructions ++ body,
        emission.depth + 1, max emission.maxDepth (emission.depth + height)⟩

variable {emission : Emission} {height rightHeight : Nat}
  {body rightBody : List Instruction} {pools rightPools : Pools}

theorem grows_append (emission : Emission) (height : Nat)
    (code : List Instruction × Pools) :
    emission.Grows (emission.append height code) height :=
  ⟨rfl, rfl⟩

theorem emit_one_append (positive : 1 ≤ height) (instruction : Instruction) :
    (emission.append height (body, pools)).emit 1 instruction =
      emission.append height (body ++ [instruction], pools) := by
  have grows := (emission.grows_append height (body, pools)).emit_one positive
    instruction
  simp only [append, emit, Emission.mk.injEq, true_and]
  exact ⟨Array.toList_inj.1 (by simp), grows.depth, grows.maxDepth⟩

theorem convert_append (positive : 1 ≤ height)
    (instructions : List Instruction) :
    (emission.append height (body, pools)).convert instructions =
      emission.append height (body ++ instructions, pools) := by
  induction instructions generalizing body with
  | nil =>
      rw [List.append_nil]
      rfl
  | cons instruction rest inductionHypothesis =>
      rw [convert, List.foldl_cons, emit_one_append positive, ← convert,
        inductionHypothesis, List.append_assoc, List.singleton_append]

/-- The operation on two values leaves its result where the left one was. -/
theorem emit_two_append (positive : 1 ≤ rightHeight)
    (instruction : Instruction) :
    ((emission.append height (body, pools)).append rightHeight
        (rightBody, rightPools)).emit 2 instruction =
      emission.append (max height (1 + rightHeight))
        (body ++ rightBody ++ [instruction], rightPools) := by
  have grows := (emission.grows_append height (body, pools)).emit_two
    (Emission.grows_append _ rightHeight (rightBody, rightPools)) positive
    instruction
  simp only [append, emit, Emission.mk.injEq, true_and]
  exact ⟨Array.toList_inj.1 (by simp), grows.depth, grows.maxDepth⟩

theorem emitPooled_eq_loadPooled (emission : Emission) {value : Constant}
    (isPooled : value.immediate? = none) :
    emission.emitPooled value =
      (emission.pools.loadPooled value).map fun (instruction, pools) =>
        emission.append 1 ([instruction], pools) := by
  unfold emitPooled
  split
  · cases isPooled
  · cases isPooled
  · rename_i constants names instructions depth maxDepth _ _
    simp only [Pools.loadPooled, Emission.pools]
    cases constants.insert value <;> rfl

/-- A load is emitted on top of what the stack holds. -/
theorem emitConstant_eq_load (emission : Emission) (value : Constant) :
    emission.emitConstant value =
      (emission.pools.load value).map fun (instruction, pools) =>
        emission.append 1 ([instruction], pools) := by
  rw [emitConstant_eq, Pools.load]
  cases isPooled : value.immediate? with
  | some instruction =>
      rfl
  | none =>
      exact emission.emitPooled_eq_loadPooled isPooled

theorem emitMember_append (positive : 1 ≤ height) (name : String) :
    (emission.append height (body, pools)).emitMember name =
      (pools.select name).map fun (instruction, pools) =>
        emission.append height (body ++ [instruction], pools) := by
  unfold emitMember
  simp only [append, Pools.select]
  rcases pools.names.insert name with error | ⟨index, names⟩
  · rfl
  · have emitted :
        (emission.append height (body, ⟨pools.constants, names⟩)).emit 1
            (.getMember index) =
          emission.append height
            (body ++ [.getMember index], ⟨pools.constants, names⟩) :=
      emit_one_append positive _
    exact congrArg Except.ok emitted

end Emission

/-- What follows an operation is the boxing of its result. -/
theorem BinaryPlan.Suits.afterOperation_eq {plan : BinaryPlan}
    {operator : BinaryOperator} {left right type : StaticType}
    (suits : plan.Suits left right operator type) :
    plan.afterOperation = boxing type := by
  cases suits <;> rfl

/-- The code of an expression that elaborates is emitted as one piece: it leaves
one value and counts what the expression needs. -/
theorem Elaborates.generate_eq_code {locals : LocalMap}
    {members : MemberTypes} {literals next : Array Constant}
    {expression : Expression} {typed : TypedExpression}
    (elaborated : Elaborates locals members literals expression typed next)
    (table : Array Constant) :
    ∀ emission, typed.generate table emission =
      (typed.code table emission.pools).map
        (emission.append typed.need) := by
  induction elaborated with
  | literal literals value =>
      intro emission
      rw [TypedExpression.generate, TypedExpression.code]
      cases table[literals.size]? with
      | none =>
          rfl
      | some value =>
          simp only [emission.emitConstant_eq_load]
          cases emission.pools.load value <;> rfl
  | slot literals found =>
      intro emission
      rfl
  | @unary literals next operator inner operand type operands defined
      inductionHypothesis =>
      intro emission
      rw [TypedExpression.generate, TypedExpression.code,
        inductionHypothesis]
      cases unaryOperation? operator type with
      | none =>
          rfl
      | some operation =>
          dsimp only
          rcases operand.code table emission.pools with error | ⟨body, pools⟩
          · rfl
          · simp only [Except.map]
            rw [Emission.convert_append operand.one_le_need,
              List.append_assoc]
            rfl
  | @member literals next inner owner className name type operands isObject
      found inductionHypothesis =>
      intro emission
      rw [TypedExpression.generate, TypedExpression.code,
        inductionHypothesis]
      rcases owner.code table emission.pools with error | ⟨body, pools⟩
      · rfl
      · simp only [Except.map, Except.bind]
        rw [Emission.emitMember_append owner.one_le_need]
        cases pools.select name <;> rfl
  | @binary literals middle next operator first second left right type
      leftOperands rightOperands defined leftHypothesis rightHypothesis =>
      intro emission
      obtain ⟨plan, planned, suits⟩ := BinaryPlan.exists_suits defined
      rw [TypedExpression.generate, TypedExpression.code, leftHypothesis,
        planned]
      dsimp only
      rcases left.code table emission.pools with error | ⟨leftBody, pools⟩
      · rfl
      simp only [Except.map, Except.bind]
      rw [Emission.convert_append left.one_le_need, rightHypothesis]
      have goesOn : (emission.append left.need
          (leftBody ++ plan.afterLeft, pools)).pools = pools := rfl
      rw [goesOn]
      rcases right.code table pools with error | ⟨rightBody, rightPools⟩
      · rfl
      simp only [Except.map]
      rw [Emission.convert_append right.one_le_need,
        Emission.emit_two_append right.one_le_need,
        Emission.convert_append (Nat.le_trans left.one_le_need
          (Nat.le_max_left _ _)), suits.afterOperation_eq]
      simp only [List.append_assoc]
      rfl

/-! ## Errors -/

theorem Pools.load_failsOnlyWhenFull (pools : Pools) (value : Constant) :
    FailsOnlyWhenFull (pools.load value) := by
  unfold load
  split
  · exact .ok _
  · exact (pools.constants.insert_failsOnlyWhenFull value).map _

theorem Pools.select_failsOnlyWhenFull (pools : Pools) (name : String) :
    FailsOnlyWhenFull (pools.select name) :=
  (pools.names.insert_failsOnlyWhenFull name).map _

/-- What elaborates has a plan for each of its operators, so only a literal or a
pool is in the way of its code. -/
theorem Elaborates.cases_of_code_eq_error {locals : LocalMap}
    {members : MemberTypes} {literals next : Array Constant}
    {expression : Expression} {typed : TypedExpression}
    (elaborated : Elaborates locals members literals expression typed next)
    {table : Array Constant} {error : Error} :
    ∀ {pools : Pools}, typed.code table pools = .error error →
      error = .malformed .unknownLiteral ∨ error = .tooManyConstants := by
  induction elaborated with
  | literal literals value =>
      intro pools failed
      rw [TypedExpression.code] at failed
      split at failed
      · exact .inr ((pools.load_failsOnlyWhenFull _).eq_of_eq_error
          (Except.map_eq_error_iff.1 failed))
      · cases failed
        exact .inl rfl
  | slot literals found =>
      intro pools failed
      cases failed
  | unary operands defined inductionHypothesis =>
      intro pools failed
      obtain ⟨operation, operated, _⟩ := UnaryOperator.exists_suits defined
      rw [TypedExpression.code, operated] at failed
      exact inductionHypothesis (Except.map_eq_error_iff.1 failed)
  | member operands isObject found inductionHypothesis =>
      intro pools failed
      rw [TypedExpression.code] at failed
      rcases Except.bind_eq_error_iff.1 failed with
        ownerFailed | ⟨⟨body, pools⟩, _, selectionFailed⟩
      · exact inductionHypothesis ownerFailed
      · exact .inr ((pools.select_failsOnlyWhenFull _).eq_of_eq_error
          (Except.map_eq_error_iff.1 selectionFailed))
  | binary leftOperands rightOperands defined leftHypothesis
      rightHypothesis =>
      intro pools failed
      obtain ⟨plan, planned, _⟩ := BinaryPlan.exists_suits defined
      rw [TypedExpression.code, planned] at failed
      rcases Except.bind_eq_error_iff.1 failed with
        leftFailed | ⟨_, _, rightFailed⟩
      · exact leftHypothesis leftFailed
      · exact rightHypothesis (Except.map_eq_error_iff.1 rightFailed)

/-! ## The work list -/

/-- Lowering a typed program is generating its code in post-order, with any
table of literals and whatever has been emitted before. The work list takes
over the pools that the recursion hands on, appends the code of the recursion,
counts one more value and the depth that the expression needs, and then does
the steps that were left; or it ends in the error that the recursion ends in,
which is one of a literal that the table lacks or of a full pool. -/
theorem run_visit_eq_code {locals : LocalMap} {members : MemberTypes}
    {limit : Nat} {tokens : List Token} {program : TypedProgram}
    (typed : TypedProgram.ofTokens locals members limit tokens =
      .ok program) (literals : Array Constant) :
    (∀ (emission : Emission) (steps : List LoweringStep),
        LoweringStep.run literals emission (.visit program.root :: steps) =
          match program.root.code literals
              ⟨emission.constants, emission.names⟩ with
          | .ok (body, pools) =>
              LoweringStep.run literals
                ⟨pools.constants, pools.names, emission.instructions ++ body,
                  emission.depth + 1,
                  max emission.maxDepth
                    (emission.depth + program.root.need)⟩ steps
          | .error error => .error error) ∧
      ∀ (pools : Pools) (error : Error),
        program.root.code literals pools = .error error →
          error = .malformed .unknownLiteral ∨
            error = .tooManyConstants := by
  obtain ⟨expression, _, elaborated, _⟩ :=
    TypedProgram.ofTokens_eq_ok_iff.1 typed
  refine ⟨fun emission steps => ?_, fun pools error failed => ?_⟩
  · rw [LoweringStep.run_visit, elaborated.generate_eq_code literals emission,
      Emission.pools]
    rcases program.root.code literals
      ⟨emission.constants, emission.names⟩ with error | ⟨body, pools⟩ <;> rfl
  · exact elaborated.cases_of_code_eq_error failed

/-- The tokens of `(count + cart.total) * 300`, whose sum is a wrapper, with its
own table of literals and with an empty one. -/
theorem run_visit_of_scaled_sum :
    let locals : LocalMap :=
      (LocalMap.empty.insert "count" 0 ⟨.primitive (.number .int), true⟩).insert
        "cart" 1 ⟨.object "Cart", true⟩
    let members : MemberTypes :=
      MemberTypes.none.insert "Cart" "total" ⟨.primitive (.number .long), true⟩
    let tokens : List Token :=
      [.binary (.arithmetic .multiply), .binary (.arithmetic .add),
        .operand (.reference "count"), .binary .member,
        .operand (.reference "cart"), .operand (.reference "total"),
        .operand (.constant (.number (.int 300)))]
    ∃ program,
      TypedProgram.ofTokens locals members 4 tokens = .ok program ∧
        (∃ constants names,
          LoweringStep.run program.literals .empty [.visit program.root] =
            .ok ⟨constants, names,
              #[.loadLocal 0, .unbox (.number .int), .convert .intToLong,
                .loadLocal 1, .getMember 0, .unbox (.number .long),
                .operate (.number .long) '+'.toUInt8, .box (.number .long),
                .unbox (.number .long), .loadConstant 0, .convert .intToLong,
                .operate (.number .long) '*'.toUInt8], 1, 2⟩) ∧
        ∀ steps,
          LoweringStep.run #[] .empty (.visit program.root :: steps) =
            .error (.malformed .unknownLiteral) := by
  intro locals members tokens
  have count :
      locals.get "count" = .ok ⟨0, ⟨.primitive (.number .int), true⟩⟩ := rfl
  have cart : locals.get "cart" = .ok ⟨1, ⟨.object "Cart", true⟩⟩ := rfl
  have total :
      members "Cart" "total" = .ok ⟨.primitive (.number .long), true⟩ := rfl
  have typed : TypedProgram.ofTokens locals members 4 tokens =
      .ok ⟨.binary (.arithmetic .multiply)
        (.binary (.arithmetic .add)
          (.slot 0 ⟨.primitive (.number .int), true⟩)
          (.member (.slot 1 ⟨.object "Cart", true⟩) "total"
            ⟨.primitive (.number .long), true⟩)
          ⟨.primitive (.number .long), true⟩)
        (.literal 0 ⟨.primitive (.number .int), false⟩)
        ⟨.primitive (.number .long), false⟩, #[.number (.int 300)]⟩ :=
    TypedProgram.ofTokens_eq_ok_iff.2
      ⟨.binary (.arithmetic .multiply)
          (.binary (.arithmetic .add) (.operand (.reference "count"))
            (.binary .member (.operand (.reference "cart"))
              (.operand (.reference "total"))))
          (.operand (.constant (.number (.int 300)))), rfl,
        .binary (.binary (.slot #[] count) (.member (.slot #[] cart) rfl total)
          rfl) (.literal #[] _) rfl, by decide⟩
  refine ⟨_, typed, ?_⟩
  have lowered (literals : Array Constant) :=
    (run_visit_eq_code typed literals).1 .empty
  simp only [lowered]
  simp [TypedExpression.code, TypedExpression.type, TypedExpression.need,
    BinaryPlan.of?, BinaryPlan.operating?, BinaryPlan.onNumbers,
    BinaryOperator.code?, coercion, unboxing, widening, boxing,
    StaticType.isString, StaticType.numeric?, StaticType.primitive?,
    Pools.select, Pools.load, Pools.loadPooled, Constant.immediate?_int,
    Pool.empty, Pool.insert, Except.map, Except.bind, Emission.empty,
    LoweringStep.run]

end Formula
