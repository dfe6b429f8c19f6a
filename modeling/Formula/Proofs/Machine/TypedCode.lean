import Formula.Proofs.Lowering.Assembly
import Formula.Proofs.Machine.Typing
import Formula.Proofs.Typing.Elaboration

/-!
# Compiled code is typed

Every instruction of compiled code finds operands of the types that it takes,
and the code returns the one value that is left, a value of the result type.
-/

namespace Formula

/-! ## Local variables -/

/-- Local variables of one slot have one type. -/
def LocalMap.AgreesOnSlots (map : LocalMap) : Prop :=
  ∀ name other held shared, map.get name = .ok held →
    map.get other = .ok shared → held.slot = shared.slot →
      held.type = shared.type

namespace LocalMap

theorem get_eq_ok_iff {map : LocalMap} {name : String} {held : Local} :
    map.get name = .ok held ↔ map.locals.get? name = some held := by
  unfold get
  cases map.locals.get? name with
  | none =>
      simp
  | some found =>
      simp

/-- The slot of a local variable has its type. -/
theorem typeAt?_of_get {map : LocalMap} (agrees : map.AgreesOnSlots)
    {name : String} {held : Local} (found : map.get name = .ok held) :
    map.typeAt? held.slot = some held.type := by
  have foundEntry := get_eq_ok_iff.1 found
  have isHeld : held ∈ map.locals.entries.filterMap fun entry =>
      map.locals.get? entry.1 := by
    obtain ⟨before, after, entriesEq, _⟩ :=
      List.lookup_eq_some_iff.1 foundEntry
    have isEntry : (name, held) ∈ map.locals.entries := by
      rw [entriesEq]
      exact List.mem_append_right before List.mem_cons_self
    exact List.mem_filterMap.2 ⟨(name, held), isEntry, foundEntry⟩
  have typeEq : map.typeAt? held.slot =
      ((map.locals.entries.filterMap fun entry =>
        map.locals.get? entry.1).find? fun other =>
          other.slot = held.slot).map Local.type := rfl
  cases first : (map.locals.entries.filterMap fun entry =>
      map.locals.get? entry.1).find? fun other => other.slot = held.slot with
  | none =>
      have absent := List.find?_eq_none.1 first held isHeld
      simp at absent
  | some shared =>
      have sameSlot : shared.slot = held.slot := by
        simpa using List.find?_some first
      obtain ⟨entry, _, isShared⟩ :=
        List.mem_filterMap.1 (List.mem_of_find?_eq_some first)
      have sameType := agrees entry.1 name shared held
        (get_eq_ok_iff.2 isShared) found sameSlot
      rw [typeEq, first, Option.map_some, sameType]

end LocalMap

/-! ## Operators -/

namespace CodeContext

variable {context : CodeContext} {left right type : StaticType}

/-- A plan turns its operands into its result: each is converted where it was
left, and the operation finds what the conversions leave. -/
def TurnsByPlan (context : CodeContext) (plan : BinaryPlan)
    (left right type : StaticType) : Prop :=
  ∃ leftReady rightReady,
    context.Turns plan.afterLeft [left] [leftReady] ∧
      context.Turns plan.afterRight [right] [rightReady] ∧
        context.Turns (plan.operation :: plan.afterOperation)
          [rightReady, leftReady] [type]

theorem turns_operate {kind : NumericKind} {code : UInt8}
    {operator : BinaryOperator} {operands : List StaticType}
    (coded : operator.code? = some code)
    (taken : Instruction.numericOperands? kind operator = some operands) :
    context.Turns [.operate (.number kind) code] operands [.number kind] := by
  apply turns_of_signature?
  rw [Instruction.signature?, BinaryOperator.ofCode?_of_code? coded,
    Option.bind_some, taken]
  rfl

theorem turns_boxedIfBoth (kind : PrimitiveKind) :
    context.Turns (boxing (left.boxedIfBoth right kind))
      [⟨.primitive kind, false⟩] [left.boxedIfBoth right kind] :=
  turns_boxing rfl

/-- Whatever the operands are, their plan turns them into a result of its
type. -/
theorem turnsByPlan_of_suits {plan : BinaryPlan} {operator : BinaryOperator}
    (suits : plan.Suits left right operator type) :
    context.TurnsByPlan plan left right type := by
  cases suits with
  | concatenation =>
      exact ⟨_, _, turns_stringifying left, turns_stringifying right,
        turns_of_signature? rfl⟩
  | @arithmetic _ _ kind promoted coded =>
      obtain ⟨leftKind, rightKind, leftNumeric, rightNumeric, rfl⟩ :=
        StaticType.numeric?_of_promote? promoted
      have operated : context.Turns
          [.operate (.number (leftKind.promote rightKind)) _] _ _ :=
        turns_operate coded rfl
      exact ⟨_, _,
        turns_coercion leftNumeric (NumericKind.rank_le_promote_left _ _),
        turns_coercion rightNumeric (NumericKind.rank_le_promote_right _ _),
        operated.append (turns_boxedIfBoth _)⟩
  | bitwise promoted coded =>
      obtain ⟨leftKind, rightKind, leftNumeric, rightNumeric, leftIntegral,
        rightIntegral, rfl⟩ := StaticType.numeric?_of_promoteIntegral? promoted
      have integral :=
        NumericKind.isIntegral_promote leftIntegral rightIntegral
      have operated : context.Turns
          [.operate (.number (leftKind.promote rightKind)) _] _ _ :=
        turns_operate coded (if_pos integral)
      exact ⟨_, _,
        turns_coercion leftNumeric (NumericKind.rank_le_promote_left _ _),
        turns_coercion rightNumeric (NumericKind.rank_le_promote_right _ _),
        operated.append (turns_boxedIfBoth _)⟩
  | @bitwiseBooleans _ code leftBoolean rightBoolean coded =>
      have operated : context.Turns [.operate .boolean code]
          [.boolean, .boolean] [.boolean] := by
        apply turns_of_signature?
        rw [Instruction.signature?, BinaryOperator.ofCode?_of_code? coded]
      exact ⟨_, _,
        turns_unboxing (StaticType.kind_of_isBoolean leftBoolean),
        turns_unboxing (StaticType.kind_of_isBoolean rightBoolean),
        operated.append (turns_boxedIfBoth _)⟩
  | shift numeric distance integral whole coded =>
      exact ⟨_, _, turns_unboxing (StaticType.kind_of_numeric? numeric),
        turns_distance distance whole,
        turns_operate coded (if_pos integral)⟩
  | logical _ leftBoolean rightBoolean =>
      exact ⟨_, _,
        turns_unboxing (StaticType.kind_of_isBoolean leftBoolean),
        turns_unboxing (StaticType.kind_of_isBoolean rightBoolean),
        turns_of_signature? rfl⟩
  | booleanComparison _ leftBoolean rightBoolean =>
      exact ⟨_, _,
        turns_unboxing (StaticType.kind_of_isBoolean leftBoolean),
        turns_unboxing (StaticType.kind_of_isBoolean rightBoolean),
        turns_of_signature? rfl⟩
  | comparison _ promoted =>
      obtain ⟨leftKind, rightKind, leftNumeric, rightNumeric, rfl⟩ :=
        StaticType.numeric?_of_promote? promoted
      exact ⟨_, _,
        turns_coercion leftNumeric (NumericKind.rank_le_promote_left _ _),
        turns_coercion rightNumeric (NumericKind.rank_le_promote_right _ _),
        turns_of_signature? rfl⟩
  | referenceComparison operator compared =>
      obtain ⟨leftReference, rightReference⟩ :=
        StaticType.isReference_of_equality? compared
      refine ⟨_, _, turns_nil _, turns_nil _, turns_of_check fun stack => ?_⟩
      exact if_pos (by rw [leftReference, rightReference]; rfl)

theorem turns_unary {operator : UnaryOperator} {operation : List Instruction}
    (suits : operator.Suits left operation type) :
    context.Turns (unboxing left ++ operation) [left] [type] := by
  cases suits with
  | negate numeric =>
      exact (turns_unboxing (StaticType.kind_of_numeric? numeric)).append
        (turns_of_signature? rfl)
  | plus numeric =>
      exact (turns_unboxing (StaticType.kind_of_numeric? numeric)).append
        (turns_nil _)
  | not isBoolean =>
      exact (turns_unboxing (StaticType.kind_of_isBoolean isBoolean)).append
        (turns_of_signature? rfl)
  | complementInt numeric | complementLong numeric =>
      exact (turns_unboxing (StaticType.kind_of_numeric? numeric)).append
        (turns_of_signature? rfl)

theorem turns_getMember {index : Address} {name className : String}
    (named : context.names[index.val]? = some name)
    (isObject : left.kind = .object className)
    (found : context.members className name = .ok type) :
    context.Turns [.getMember index] [left] [type] := by
  apply turns_of_check
  intro stack
  have isMember : context.memberType? index left = some type := by
    simp only [memberType?, named, isObject, found]
    rfl
  show (context.memberType? index left).map (· :: stack) = _
  rw [isMember]
  rfl

theorem turns_load {constants : Pool Constant} {instruction : Instruction}
    {value : Constant} (pooled : context.constants = constants.entries)
    (loads : instruction.Loads constants value) :
    context.Turns [instruction] [] [.ofConstant value] := by
  cases loads with
  | @pooled index _ found =>
      apply turns_of_check
      intro stack
      show context.constants[index.val]?.map _ = _
      rw [pooled, found]
      rfl
  | int | boolean | null =>
      exact turns_of_signature? rfl

end CodeContext

/-! ## Expressions -/

/-- The code of an expression that elaborates leaves a value of its type, and
everything that lies below as it is. -/
theorem Elaborates.turns {context : CodeContext}
    (agrees : context.locals.AgreesOnSlots) {table : Array Constant}
    {constants : Pool Constant} {names : Pool String}
    (pooled : context.constants = constants.entries)
    (named : context.names = names.entries)
    {literals next : Array Constant} {expression : Expression}
    {typed : TypedExpression}
    (elaborated : Elaborates context.locals context.members literals
      expression typed next) :
    ∀ {body : List Instruction},
      Assembles table constants names typed body →
        (∀ (index : Nat) (value : Constant), next[index]? = some value →
          table[index]? = some value) →
          context.Turns body [] [typed.type] := by
  induction elaborated with
  | literal literals value =>
      intro body assembled tabled
      cases assembled with
      | literal isLiteral loads type =>
          have inTable := tabled literals.size value (by simp)
          rw [isLiteral] at inTable
          cases inTable
          exact CodeContext.turns_load pooled loads
  | slot literals found =>
      intro body assembled tabled
      cases assembled with
      | slot address type =>
          have typeFound := LocalMap.typeAt?_of_get agrees found
          apply CodeContext.turns_of_check
          intro stack
          show (context.locals.typeAt? _).map _ = _
          rw [typeFound]
          rfl
  | unary operands defined inductionHypothesis =>
      intro body assembled tabled
      cases assembled with
      | unary operandAssembled operated =>
          have operand := inductionHypothesis operandAssembled tabled
          have suits := UnaryOperator.suits_of_unaryOperation? operated defined
          exact operand.append (CodeContext.turns_unary suits)
  | member operands isObject found inductionHypothesis =>
      intro body assembled tabled
      cases assembled with
      | member ownerAssembled indexed =>
          have owner := inductionHypothesis ownerAssembled tabled
          rw [← named] at indexed
          exact owner.append
            (CodeContext.turns_getMember indexed isObject found)
  | binary leftOperands rightOperands defined leftHypothesis
      rightHypothesis =>
      intro body assembled tabled
      cases assembled with
      | binary leftAssembled rightAssembled planned =>
          have left := leftHypothesis leftAssembled fun index value isLiteral =>
            tabled index value (rightOperands.literals_within isLiteral)
          have right := rightHypothesis rightAssembled tabled
          obtain ⟨leftReady, rightReady, turnsLeft, turnsRight, operates⟩ :=
            CodeContext.turnsByPlan_of_suits
              (BinaryPlan.suits_of_of? planned defined)
          -- the right side runs on top of the left one, already converted
          have rightAbove := (right.append turnsRight).above [leftReady]
          have whole := left.append (turnsLeft.append
            (rightAbove.append operates))
          simp only [List.append_assoc] at whole
          exact whole

/-! ## Compiled code -/

/-- The addresses in compiled code. -/
def Code.context (code : Code) (locals : LocalMap) (members : MemberTypes) :
    CodeContext :=
  ⟨code.constants, code.names, locals, members⟩

/-- Compiled code checks from the empty stack: no instruction lacks an operand
or meets one of another type. It returns once, at its end, when one value of
the result type is left. -/
theorem compiled_code_checks {locals : LocalMap} {members : MemberTypes}
    {limit : Nat} {tokens : List Token} {code : Code}
    (compiled : Code.ofTokens locals members limit tokens = .ok code)
    (agrees : locals.AgreesOnSlots) :
    ∃ body, code.instructions.toList = body ++ [.return] ∧
      .return ∉ body ∧
        (code.context locals members).checkAll body [] =
          some [code.resultType] := by
  obtain ⟨program, typed, lowered⟩ := Code.exists_program_of_ofTokens compiled
  obtain ⟨expression, rfl, elaborated, _⟩ :=
    TypedProgram.ofTokens_eq_ok_iff.1 typed
  obtain ⟨constants, names, body, assembled, constantsEq, namesEq,
    instructionsEq⟩ := Code.exists_assembles_of_ofTyped lowered
  have turns : (code.context locals members).Turns body []
      [program.root.type] :=
    Elaborates.turns agrees constantsEq namesEq elaborated assembled
      (fun _ _ isLiteral => isLiteral)
  have checked : (code.context locals members).checkAll body [] =
      some [code.resultType] := by
    rw [Code.resultType_of_ofTyped lowered]
    exact turns []
  exact ⟨body, instructionsEq,
    CodeContext.return_not_mem_of_checkAll checked, checked⟩

/-- The tokens of `count + size`, wrappers of different kinds whose sum is a
wrapper too. -/
theorem sum_of_wrappers_checks :
    let locals : LocalMap :=
      (LocalMap.empty.insert "count" 0
        ⟨.primitive (.number .int), true⟩).insert "size" 1
          ⟨.primitive (.number .long), true⟩
    let tokens : List Token :=
      [.binary (.arithmetic .add), .operand (.reference "count"),
        .operand (.reference "size")]
    ∃ code, Code.ofTokens locals .none 2 tokens = .ok code ∧
      locals.AgreesOnSlots ∧
        code.resultType = ⟨.primitive (.number .long), true⟩ ∧
          ∃ body, code.instructions.toList = body ++ [.return] ∧
            .return ∉ body ∧
              (code.context locals .none).checkAll body [] =
                some [code.resultType] := by
  intro locals tokens
  have count : locals.get "count" =
      .ok ⟨0, ⟨.primitive (.number .int), true⟩⟩ := rfl
  have size : locals.get "size" =
      .ok ⟨1, ⟨.primitive (.number .long), true⟩⟩ := rfl
  have typed : TypedProgram.ofTokens locals .none 2 tokens =
      .ok ⟨.binary (.arithmetic .add)
        (.slot 0 ⟨.primitive (.number .int), true⟩)
        (.slot 1 ⟨.primitive (.number .long), true⟩)
        ⟨.primitive (.number .long), true⟩, #[]⟩ :=
    TypedProgram.ofTokens_eq_ok_iff.2
      ⟨.binary (.arithmetic .add) (.operand (.reference "count"))
          (.operand (.reference "size")), rfl,
        .binary (.slot #[] count) (.slot #[] size) rfl, by decide⟩
  have compiled : Code.ofTokens locals .none 2 tokens =
      .ok ⟨#[], #[],
        #[.loadLocal 0, .unbox (.number .int), .convert .intToLong,
          .loadLocal 1, .unbox (.number .long),
          .operate (.number .long) '+'.toUInt8, .box (.number .long),
          .return], ⟨.primitive (.number .long), true⟩, 2⟩ := by
    rw [Code.ofTokens, typed]
    cbv
  have agrees : locals.AgreesOnSlots := by
    intro name other held shared found foundOther sameSlot
    rw [LocalMap.get_insert, LocalMap.get_insert, LocalMap.get_empty]
      at found foundOther
    split at found
    · cases found
      split at foundOther
      · cases foundOther
        rfl
      · split at foundOther
        · cases foundOther
          cases sameSlot
        · cases foundOther
    · split at found
      · cases found
        split at foundOther
        · cases foundOther
          cases sameSlot
        · split at foundOther
          · cases foundOther
            rfl
          · cases foundOther
      · cases found
  exact ⟨_, compiled, agrees, rfl, compiled_code_checks compiled agrees⟩

end Formula
