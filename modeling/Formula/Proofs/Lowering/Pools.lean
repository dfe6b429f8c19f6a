import Mathlib.Data.List.Nodup
import Formula.Proofs.Lowering.Completion
import Formula.Proofs.Pool.Uses

/-!
# Pools of compiled code

Compiled code holds each constant and each member name that it refers to once,
in the order of first use, and its instructions refer to them by position.
-/

namespace Formula

/-! ## What is pooled -/

namespace Constant

/-- What tells a value apart from others: its kind together with its bits, its
truth or its text, and for an object nothing but its identity. -/
inductive Mark
  | number (value : Number)
  | boolean (value : Bool)
  | string (text : String)
  | null
  | object (identity : Nat)
  deriving DecidableEq

def mark : Constant → Mark
  | .number value => .number value
  | .boolean value => .boolean value
  | .string value => .string value
  | .null => .null
  | .object value => .object value.identity

/-- Whether a value is loaded from the pool: truth values, `null` and integers
of one byte are not. -/
def isPooled : Constant → Bool
  | .number (.int value) => ¬ (-128 ≤ value.toInt ∧ value.toInt < 128)
  | .boolean _ | .null => false
  | _ => true

theorem immediate?_eq_none_iff {value : Constant} :
    value.immediate? = none ↔ value.isPooled := by
  cases value with
  | number number =>
      cases number with
      | int integer =>
          rw [immediate?_int]
          split
          · rename_i small
            exact ⟨nofun, fun pooled => absurd small (of_decide_eq_true pooled)⟩
          · rename_i large
            exact ⟨fun _ => decide_eq_true large, fun _ => rfl⟩
      | long | float | double =>
          exact ⟨fun _ => rfl, fun _ => rfl⟩
  | boolean | null =>
      constructor <;>
        · intro pooled
          cases pooled
  | string | object =>
      exact ⟨fun _ => rfl, fun _ => rfl⟩

end Constant

namespace Token

/-- The literal of a token, if it is loaded from the pool. -/
def pooled? : Token → Option Constant
  | .operand (.constant value) => if value.isPooled then some value else none
  | _ => none

/-- The literals among tokens that are loaded from the pool, in order. -/
def pooled (tokens : List Token) : List Constant :=
  tokens.filterMap pooled?

/-- Objects of one identity among tokens are one object. -/
def IdentifyObjects (tokens : List Token) : Prop :=
  ∀ object other : HostObject,
    .operand (.constant (.object object)) ∈ tokens →
      .operand (.constant (.object other)) ∈ tokens →
        object.identity = other.identity → object = other

theorem mem_of_mem_pooled {tokens : List Token} {value : Constant}
    (mem : value ∈ pooled tokens) : .operand (.constant value) ∈ tokens := by
  obtain ⟨token, tokenMem, holds⟩ := List.mem_filterMap.1 mem
  unfold pooled? at holds
  split at holds
  · split at holds
    · cases holds
      exact tokenMem
    · cases holds
  · cases holds

/-- Their marks tell the literals among tokens apart. -/
theorem IdentifyObjects.tellsApart {tokens : List Token}
    (identified : IdentifyObjects tokens) :
    ∀ value ∈ pooled tokens, ∀ other ∈ pooled tokens,
      value.mark = other.mark → value = other := by
  intro value mem other memOther same
  cases value with
  | object object =>
      cases other with
      | object other =>
          have identities : object.identity = other.identity :=
            Constant.Mark.object.inj same
          rw [identified object other (mem_of_mem_pooled mem)
            (mem_of_mem_pooled memOther) identities]
      | _ =>
          cases same
  | _ =>
      cases other <;> simp_all [Constant.mark]

end Token

/-- The member names of an expression in the order in which members are
selected. -/
def TypedExpression.memberNames : TypedExpression → List String
  | .literal _ _ | .slot _ _ => []
  | .unary _ operand _ => operand.memberNames
  | .member owner name _ => owner.memberNames ++ [name]
  | .binary _ left right _ => left.memberNames ++ right.memberNames

/-! ## What instructions refer to -/

namespace Instruction

def constantAddress? : Instruction → Option Address
  | .loadConstant index => some index
  | _ => none

/-- The address of the name of the member that an instruction selects. -/
def nameAddress? : Instruction → Option Address
  | .getMember index => some index
  | _ => none

/-- None of some instructions refers to a pool. -/
def ReferNowhere (instructions : List Instruction) : Prop :=
  ∀ instruction ∈ instructions,
    instruction.constantAddress? = none ∧ instruction.nameAddress? = none

theorem referNowhere_singleton {instruction : Instruction}
    (noConstant : instruction.constantAddress? = none)
    (noName : instruction.nameAddress? = none) : ReferNowhere [instruction] :=
  List.forall_mem_singleton.2 ⟨noConstant, noName⟩

theorem referNowhere_of_onlyConvert {instructions : List Instruction}
    (converts : OnlyConvert instructions) : ReferNowhere instructions := by
  intro instruction mem
  have isConversion := converts instruction mem
  cases instruction <;> first | exact ⟨rfl, rfl⟩ | cases isConversion

theorem referNowhere_of_isOperation {instruction : Instruction}
    (operates : instruction.isOperation) : ReferNowhere [instruction] := by
  apply referNowhere_singleton
  all_goals cases instruction <;> first | rfl | cases operates

theorem referNowhere_of_immediate? {value : Constant}
    {instruction : Instruction}
    (immediate : value.immediate? = some instruction) :
    ReferNowhere [instruction] := by
  rcases Constant.cases_of_immediate? immediate with
    ⟨_, _, _, rfl⟩ | ⟨_, _, rfl⟩ | ⟨_, rfl⟩ <;>
    exact referNowhere_singleton rfl rfl

end Instruction

/-! ## Emitting -/

/-- More than an instruction has addresses. -/
def Overflow (constants : List Constant) (names : List String) : Prop :=
  65536 < constants.eraseDups.length ∨ 65536 < names.eraseDups.length

theorem Overflow.append {constants : List Constant} {names : List String}
    (overflow : Overflow constants names) (moreConstants : List Constant)
    (moreNames : List String) :
    Overflow (constants ++ moreConstants) (names ++ moreNames) :=
  overflow.imp
    (fun tooMany => Nat.lt_of_lt_of_le tooMany
      (length_eraseDups_le_append constants moreConstants))
    (fun tooMany => Nat.lt_of_lt_of_le tooMany
      (length_eraseDups_le_append names moreNames))

namespace Emission

/-- The pools hold the constants and the names that the instructions refer to
in order. -/
structure Serves (emission : Emission) (constants : List Constant)
    (names : List String) : Prop where
  constants :
    emission.constants.Serves constants
      (emission.instructions.toList.filterMap Instruction.constantAddress?)
  names :
    emission.names.Serves names
      (emission.instructions.toList.filterMap Instruction.nameAddress?)

/-- The pools serve all uses, or these are too many and there is an error. -/
inductive ServesOrOverflows (constants : List Constant) (names : List String) :
    Except Error Emission → Prop
  | serves {emission : Emission} (serves : emission.Serves constants names) :
      ServesOrOverflows constants names (.ok emission)
  | overflows (overflow : Overflow constants names) :
      ServesOrOverflows constants names (.error .tooManyConstants)

variable {constants moreConstants : List Constant}
  {names moreNames : List String} {emission : Emission}

theorem ServesOrOverflows.bind {result : Except Error Emission}
    {next : Emission → Except Error Emission}
    (first : ServesOrOverflows constants names result)
    (goesOn : ∀ emission, emission.Serves constants names →
      ServesOrOverflows (constants ++ moreConstants) (names ++ moreNames)
        (next emission)) :
    ServesOrOverflows (constants ++ moreConstants) (names ++ moreNames)
      (result.bind next) := by
  cases first with
  | serves serves =>
      exact goesOn _ serves
  | overflows overflow =>
      exact .overflows (overflow.append moreConstants moreNames)

theorem ServesOrOverflows.map {result : Except Error Emission}
    {next : Emission → Emission}
    (first : ServesOrOverflows constants names result)
    (goesOn : ∀ emission, emission.Serves constants names →
      (next emission).Serves constants names) :
    ServesOrOverflows constants names (result.map next) := by
  cases first with
  | serves serves =>
      exact .serves (goesOn _ serves)
  | overflows overflow =>
      exact .overflows overflow

theorem serves_empty : empty.Serves [] [] :=
  ⟨Pool.serves_empty, Pool.serves_empty⟩

theorem Serves.emit (serves : emission.Serves constants names)
    {instruction : Instruction}
    (nowhere : Instruction.ReferNowhere [instruction]) (operands : Nat) :
    (emission.emit operands instruction).Serves constants names := by
  obtain ⟨noConstant, noName⟩ := List.forall_mem_singleton.1 nowhere
  refine ⟨?_, ?_⟩
  · simpa [Emission.emit, noConstant] using serves.constants
  · simpa [Emission.emit, noName] using serves.names

theorem Serves.convert {instructions : List Instruction}
    (nowhere : Instruction.ReferNowhere instructions) :
    ∀ {emission : Emission}, emission.Serves constants names →
      (emission.convert instructions).Serves constants names := by
  induction instructions with
  | nil =>
      exact fun serves => serves
  | cons instruction rest inductionHypothesis =>
      intro emission serves
      obtain ⟨first, later⟩ := List.forall_mem_cons.1 nowhere
      exact inductionHypothesis later
        (serves.emit (List.forall_mem_singleton.2 first) 1)

theorem Serves.emitPooled (serves : emission.Serves constants names)
    {value : Constant} (pooled : value.isPooled) :
    ServesOrOverflows (constants ++ [value]) names
      (emission.emitPooled value) := by
  unfold Emission.emitPooled
  split
  · cases pooled
  · cases pooled
  rcases serves.constants.insert value with
    ⟨address, next, inserted, grown⟩ | ⟨full, tooMany⟩
  · simp only [inserted]
    refine .serves ⟨?_, ?_⟩
    · simpa [Emission.emit, Instruction.constantAddress?] using grown
    · simpa [Emission.emit, Instruction.nameAddress?, List.filterMap_cons]
        using serves.names
  · simp only [full]
    exact .overflows (.inl tooMany)

theorem emitConstant_of_isPooled (emission : Emission) {value : Constant}
    (pooled : value.isPooled) :
    emission.emitConstant value = emission.emitPooled value := by
  rw [emitConstant_eq, Constant.immediate?_eq_none_iff.2 pooled]

theorem exists_emit_of_not_isPooled (emission : Emission) {value : Constant}
    (notPooled : ¬ value.isPooled) :
    ∃ instruction, Instruction.ReferNowhere [instruction] ∧
      emission.emitConstant value = .ok (emission.emit 0 instruction) := by
  obtain ⟨instruction, immediate⟩ := Option.ne_none_iff_exists'.1
    (mt Constant.immediate?_eq_none_iff.1 notPooled)
  exact ⟨instruction, Instruction.referNowhere_of_immediate? immediate,
    by rw [emitConstant_eq, immediate]⟩

/-- A literal is a use of the pool of constants, unless the instruction holds
it. -/
theorem Serves.emitConstant (serves : emission.Serves constants names)
    (value : Constant) :
    ServesOrOverflows
      (constants ++ Token.pooled [.operand (.constant value)]) names
      (emission.emitConstant value) := by
  by_cases pooled : value.isPooled
  · have used : Token.pooled [.operand (.constant value)] = [value] := by
      simp [Token.pooled, Token.pooled?, pooled]
    rw [used, emitConstant_of_isPooled emission pooled]
    exact serves.emitPooled pooled
  · have unused : Token.pooled [.operand (.constant value)] = [] := by
      simp [Token.pooled, Token.pooled?, pooled]
    obtain ⟨instruction, nowhere, emitted⟩ :=
      exists_emit_of_not_isPooled emission pooled
    rw [unused, emitted, List.append_nil]
    exact .serves (serves.emit nowhere 0)

theorem Serves.emitMember (serves : emission.Serves constants names)
    (name : String) :
    ServesOrOverflows constants (names ++ [name])
      (emission.emitMember name) := by
  obtain ⟨pool, nameList, instructions, depth, maxDepth⟩ := emission
  unfold Emission.emitMember
  rcases serves.names.insert name with
    ⟨address, next, inserted, grown⟩ | ⟨full, tooMany⟩
  · simp only [inserted]
    refine .serves ⟨?_, ?_⟩
    · simpa [Emission.emit, Instruction.constantAddress?, List.filterMap_cons]
        using serves.constants
    · simpa [Emission.emit, Instruction.nameAddress?] using grown
  · simp only [full]
    exact .overflows (.inr tooMany)

end Emission

/-! ## Generated code -/

theorem Token.pooled_append (first second : List Token) :
    pooled (first ++ second) = pooled first ++ pooled second :=
  List.filterMap_append

/-- Generating code uses the pools for the literals among the tokens and for
the names of members, both in order. -/
theorem Elaborates.servesOrOverflows_generate {locals : LocalMap}
    {members : MemberTypes} {table literals next : Array Constant}
    {expression : Expression} {typed : TypedExpression}
    (elaborated : Elaborates locals members literals expression typed next)
    (tabled : ∀ (index : Nat) (value : Constant),
      next[index]? = some value → table[index]? = some value) :
    ∀ {emission : Emission} {constants : List Constant} {names : List String},
      emission.Serves constants names →
        Emission.ServesOrOverflows
          (constants ++ Token.pooled expression.tokens)
          (names ++ typed.memberNames) (typed.generate table emission) := by
  induction elaborated with
  | literal literals value =>
      intro emission constants names serves
      have inTable := tabled literals.size value (by simp)
      simp only [TypedExpression.generate, inTable,
        TypedExpression.memberNames, List.append_nil]
      exact serves.emitConstant value
  | slot =>
      intro emission constants names serves
      have unused (name : String) :
          Token.pooled [.operand (.reference name)] = [] := rfl
      simp only [Expression.tokens, unused, TypedExpression.memberNames,
        List.append_nil]
      exact .serves
        (serves.emit (Instruction.referNowhere_singleton rfl rfl) 0)
  | @unary _ _ _ _ operand _ operands defined inductionHypothesis =>
      intro emission constants names serves
      obtain ⟨operation, operated, _⟩ := UnaryOperator.exists_suits defined
      simp only [TypedExpression.generate, operated]
      have converts := (onlyConvert_unboxing operand.type).append
        (onlyConvert_unaryOperation? operated)
      exact (inductionHypothesis tabled serves).map fun emission serves =>
        serves.convert (Instruction.referNowhere_of_onlyConvert converts)
  | @member _ _ inner owner _ name _ operands isObject found
      inductionHypothesis =>
      intro emission constants names serves
      have uses : Token.pooled (Expression.binary .member inner
          (.operand (.reference name))).tokens =
            Token.pooled inner.tokens ++ [] :=
        Token.pooled_append inner.tokens [.operand (.reference name)]
      rw [uses, ← List.append_assoc, TypedExpression.memberNames,
        ← List.append_assoc]
      exact (inductionHypothesis tabled serves).bind fun emission serves => by
        rw [List.append_nil]
        exact serves.emitMember name
  | @binary _ _ _ operator first second left right _ leftOperands
      rightOperands defined leftHypothesis rightHypothesis =>
      intro emission constants names serves
      obtain ⟨plan, planned, _⟩ := BinaryPlan.exists_suits defined
      have balanced := BinaryPlan.isBalanced_of_of? planned
      have afterLeft :=
        Instruction.referNowhere_of_onlyConvert balanced.afterLeft
      have afterRight :=
        Instruction.referNowhere_of_onlyConvert balanced.afterRight
      have operation :=
        Instruction.referNowhere_of_isOperation balanced.operation
      have afterOperation :=
        Instruction.referNowhere_of_onlyConvert balanced.afterOperation
      have uses :
          Token.pooled (Expression.binary operator first second).tokens =
            Token.pooled first.tokens ++ Token.pooled second.tokens :=
        Token.pooled_append first.tokens second.tokens
      have generatedLeft := leftHypothesis (fun index value isLiteral =>
        tabled index value (rightOperands.literals_within isLiteral)) serves
      rw [uses, ← List.append_assoc, TypedExpression.memberNames,
        ← List.append_assoc]
      simp only [TypedExpression.generate, planned]
      exact generatedLeft.bind fun emission serves =>
        (rightHypothesis tabled (serves.convert afterLeft)).map
          fun emission serves =>
            ((serves.convert afterRight).emit operation 2).convert
              afterOperation

/-! ## Compiled code -/

/-- The pools of compiled code serve some literals and some member names, to
which its loads and its selections refer in order. No two constants have one
mark. -/
structure Code.PoolsServe (code : Code) (literals : List Constant)
    (memberNames : List String) : Prop where
  constants :
    ServeExactly code.constants literals
      (code.instructions.toList.filterMap Instruction.constantAddress?)
  marks : (code.constants.toList.map Constant.mark).Nodup
  names :
    ServeExactly code.names memberNames
      (code.instructions.toList.filterMap Instruction.nameAddress?)

def Emission.code (emission : Emission) (type : StaticType) : Code :=
  ⟨emission.constants.entries, emission.names.entries,
    emission.instructions.push .return, type, emission.maxDepth⟩

theorem Code.ofTyped_eq_map_generate (root : TypedExpression)
    (literals : Array Constant) :
    Code.ofTyped root literals =
      (root.generate literals .empty).map fun emission =>
        emission.code root.type := by
  rw [Code.ofTyped, LoweringStep.run_visit]
  cases root.generate literals .empty with
  | error error =>
      rfl
  | ok emission =>
      simp only [Except.bind, LoweringStep.run]
      rfl

/-- The pools serve code after the return as before it. -/
theorem Emission.Serves.poolsServe {emission : Emission}
    {literals : List Constant} {memberNames : List String}
    (serves : emission.Serves literals memberNames) (type : StaticType)
    (tellsApart : ∀ value ∈ literals, ∀ other ∈ literals,
      value.mark = other.mark → value = other) :
    (emission.code type).PoolsServe literals memberNames where
  constants := by
    simpa [code, Instruction.constantAddress?, List.filterMap_cons]
      using serves.constants.serveExactly
  marks := by
    refine List.Nodup.map_on (fun value mem other memOther => ?_)
      serves.constants.nodup
    have usedIn {item : Constant}
        (stands : item ∈ emission.constants.entries.toList) :
        item ∈ literals := by
      rwa [serves.constants.entries, List.mem_eraseDups] at stands
    exact tellsApart value (usedIn mem) other (usedIn memOther)
  names := by
    simpa [code, Instruction.nameAddress?, List.filterMap_cons]
      using serves.names.serveExactly

/-- A typed program is compiled unless it has more literals in the pool or more
member names than an instruction has addresses. The pools of its code are
exactly those of its literals and its member names, and every part of the
expression refers to its own entry. -/
theorem pools_exact {locals : LocalMap} {members : MemberTypes} {limit : Nat}
    {tokens : List Token} {program : TypedProgram}
    (typed : TypedProgram.ofTokens locals members limit tokens = .ok program)
    (identified : Token.IdentifyObjects tokens) :
    (Code.ofTyped program.root program.literals = .error .tooManyConstants ↔
        65536 < ((Token.pooled tokens).map Constant.mark).eraseDups.length ∨
          65536 < program.root.memberNames.eraseDups.length) ∧
      (Code.ofTyped program.root program.literals = .error .tooManyConstants ∨
        ∃ code, Code.ofTyped program.root program.literals = .ok code ∧
          code.PoolsServe (Token.pooled tokens) program.root.memberNames ∧
            ∃ constants names body,
              Assembles program.literals constants names program.root body ∧
                code.constants = constants.entries ∧
                  code.names = names.entries ∧
                    code.instructions.toList = body ++ [.return]) := by
  obtain ⟨expression, rfl, elaborated, _⟩ :=
    TypedProgram.ofTokens_eq_ok_iff.1 typed
  have tellsApart := identified.tellsApart
  have generated := elaborated.servesOrOverflows_generate
    (fun _ _ isLiteral => isLiteral) Emission.serves_empty
  rw [List.nil_append, List.nil_append] at generated
  have lowering := Code.ofTyped_eq_map_generate program.root program.literals
  generalize program.root.generate program.literals .empty = result
    at generated lowering
  rw [eraseDups_map tellsApart, List.length_map]
  cases generated with
  | serves serves =>
      refine ⟨?_, .inr ⟨_, lowering, serves.poolsServe _ tellsApart,
        Code.exists_assembles_of_ofTyped lowering⟩⟩
      have constantsFit := serves.constants.length_le
      have namesFit := serves.names.length_le
      refine iff_of_false (fun failed => ?_) ?_
      · cases lowering.symm.trans failed
      rintro (tooMany | tooMany)
      · exact Nat.not_lt_of_le constantsFit tooMany
      · exact Nat.not_lt_of_le namesFit tooMany
  | overflows overflow =>
      exact ⟨iff_of_true lowering overflow, .inl lowering⟩

/-- The tokens of
`host == host && (0.0 == -0.0 && x.size + 1000 == 1000L + x.size)`, where `host`
stands for an object. -/
theorem pools_of_like_literals :
    let type : StaticType := ⟨.object "Box", true⟩
    let locals : LocalMap := LocalMap.empty.insert "x" 0 type
    let members : MemberTypes := fun _ _ =>
      .ok ⟨.primitive (.number .int), false⟩
    let host : Constant := .object ⟨7, "Host", "a host"⟩
    let zero : Constant := .number (.double ⟨0⟩)
    let negativeZero : Constant := .number (.double ⟨1 <<< 63⟩)
    let size : Expression :=
      .binary .member (.operand (.reference "x")) (.operand (.reference "size"))
    let tree : Expression :=
      .binary (.logical .and)
        (.binary (.equality .equal) (.operand (.constant host))
          (.operand (.constant host)))
        (.binary (.logical .and)
          (.binary (.equality .equal) (.operand (.constant zero))
            (.operand (.constant negativeZero)))
          (.binary (.equality .equal)
            (.binary (.arithmetic .add) size
              (.operand (.constant (.number (.int 1000)))))
            (.binary (.arithmetic .add)
              (.operand (.constant (.number (.long 1000)))) size)))
    ∃ program code,
      TypedProgram.ofTokens locals members 6 tree.tokens = .ok program ∧
        Code.ofTyped program.root program.literals = .ok code ∧
          code.constants.toList = [host, zero, negativeZero,
            .number (.int 1000), .number (.long 1000)] ∧
            code.names.toList = ["size"] := by
  intro type locals members host zero negativeZero size tree
  have object : locals.get "x" = .ok ⟨0, type⟩ := rfl
  have elaborated :=
    (.binary (.binary (.literal _ host) (.literal _ host) rfl)
      (.binary (.binary (.literal _ zero) (.literal _ negativeZero) rfl)
        (.binary
          (.binary (.member (.slot _ object) rfl rfl) (.literal _ _) rfl)
          (.binary (.literal _ _) (.member (.slot _ object) rfl rfl) rfl) rfl)
        rfl) rfl : Elaborates locals members #[] tree _ _)
  have typed := (@TypedProgram.ofTokens_eq_ok_iff locals members 6 tree.tokens
    ⟨_, _⟩).2 ⟨tree, rfl, elaborated, by decide⟩
  have identified : Token.IdentifyObjects tree.tokens := by
    intro object other mem memOther _
    have isHost {object : HostObject}
        (mem : .operand (.constant (.object object)) ∈ tree.tokens) :
        object = ⟨7, "Host", "a host"⟩ := by
      simpa [tree, size, host, zero, negativeZero, Expression.tokens] using mem
    rw [isHost mem, isHost memOther]
  obtain ⟨exactly, full | ⟨code, lowered, serves, _⟩⟩ :=
    pools_exact typed identified
  · exact absurd (exactly.1 full) (by decide)
  · exact ⟨_, code, typed, lowered, serves.constants.inOrder,
      serves.names.inOrder⟩

end Formula
