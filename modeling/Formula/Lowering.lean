import Formula.Instruction
import Formula.Pool
import Formula.TypedExpression

/-!
Lowering a typed expression to instructions. Every conversion is explicit:
wrappers are unboxed and numbers widened right after the operand that needs it,
so that an instruction always meets operands of its own kind.
-/

namespace Formula

/-! ## Conversions -/

def unboxing (type : StaticType) : List Instruction :=
  match type.primitive? with
  | some kind => if type.nullable then [.unbox kind] else []
  | none => []

def boxing (type : StaticType) : List Instruction :=
  match type.primitive? with
  | some kind => if type.nullable then [.box kind] else []
  | none => []

def widening (source target : NumericKind) : List Instruction :=
  match source, target with
  | .int, .long => [.convert .intToLong]
  | .int, .float => [.convert .intToFloat]
  | .int, .double => [.convert .intToDouble]
  | .long, .float => [.convert .longToFloat]
  | .long, .double => [.convert .longToDouble]
  | .float, .double => [.convert .floatToDouble]
  | _, _ => []

/-- Turns a number or its wrapper into a number of a kind. -/
def coercion (type : StaticType) (target : NumericKind) : List Instruction :=
  match type.numeric? with
  | some source => unboxing type ++ widening source target
  | none => unboxing type

/-- Turns any value into a string that is present. -/
def stringifying (type : StaticType) : List Instruction :=
  if type = .string then [] else [.stringify]

/-! ## Plans -/

/-- What a binary operator comes to: what follows the left operand, what
follows the right one, the operation, and what follows that. -/
structure BinaryPlan where
  afterLeft : List Instruction
  afterRight : List Instruction
  operation : Instruction
  afterOperation : List Instruction

namespace BinaryPlan

def onPrimitives (left right : StaticType) (operation : Instruction) :
    BinaryPlan :=
  ⟨unboxing left, unboxing right, operation, []⟩

/-- Both operands become numbers of a kind. -/
def onNumbers (left right : StaticType) (kind : NumericKind)
    (operation : Instruction) : BinaryPlan :=
  ⟨coercion left kind, coercion right kind, operation, []⟩

/-- The operation of an operator on primitives, boxed like its result. -/
def operating? (operator : BinaryOperator) (left right result : StaticType) :
    Option BinaryPlan :=
  match operator.code?, result.primitive? with
  | some code, some (.number kind) =>
      some
        { onNumbers left right kind (.operate (.number kind) code) with
          afterOperation := boxing result }
  | some code, some .boolean =>
      some
        { onPrimitives left right (.operate .boolean code) with
          afterOperation := boxing result }
  | _, _ => none

def comparing? (comparison : Comparison) (left right : StaticType) :
    Option BinaryPlan :=
  (left.promote? right).map fun kind =>
    onNumbers left right kind (.compareNumbers kind comparison)

/-- The plan of a binary operator, if it is defined on the types of its
operands. A shift widens neither side; its distance becomes an int. -/
def of? (operator : BinaryOperator) (left right result : StaticType) :
    Option BinaryPlan :=
  match operator with
  | .arithmetic arithmetic =>
      if arithmetic = .add ∧ result.isString then
        some ⟨stringifying left, stringifying right, .concatenate, []⟩
      else if result.numeric?.isSome then operating? operator left right result
      else none
  | .bitwise _ => operating? operator left right result
  | .shift _ =>
      match left.numeric?, operator.code? with
      | some kind, some code =>
          let plan := onPrimitives left right (.operate (.number kind) code)
          some
            { plan with
              afterRight :=
                if right.numeric? = some .long then
                  plan.afterRight ++ [.convert .longToInt]
                else plan.afterRight }
      | _, _ => none
  | .equality equality =>
      match left.equality? right with
      | some .numeric => comparing? (.equality equality) left right
      | some .boolean =>
          some (onPrimitives left right (.compareBooleans equality))
      | some .reference => some ⟨[], [], .compareReferences equality, []⟩
      | none => none
  | .relational relational => comparing? (.relational relational) left right
  | .logical logical => some (onPrimitives left right (.logical logical))
  | .member => none

end BinaryPlan

/-- The operation of a unary operator on a result of a type, if it is defined;
`plus` needs none. -/
def unaryOperation? (operator : UnaryOperator) (result : StaticType) :
    Option (List Instruction) :=
  match operator, result.numeric? with
  | .plus, _ => some []
  | .negate, some kind => some [.negate kind]
  | .not, _ => some [.not]
  | .complement, some .int => some [.complementInt]
  | .complement, some .long => some [.complementLong]
  | _, _ => none

/-! ## Emitting -/

/-- What has been emitted: the pools, the instructions, and the depth of the
stack after them and at its highest. -/
structure Emission where
  constants : Pool Constant
  names : Pool String
  instructions : Array Instruction
  depth : Nat
  maxDepth : Nat

namespace Emission

def empty : Emission := ⟨.empty, .empty, #[], 0, 0⟩

/-- Emits an instruction that takes operands from the stack and leaves one
result. -/
def emit (emission : Emission) (operands : Nat) (instruction : Instruction) :
    Emission :=
  let depth := emission.depth - operands + 1
  { emission with
    instructions := emission.instructions.push instruction
    depth := depth
    maxDepth := max emission.maxDepth depth }

/-- Emits the load of a value from the pool of constants, which holds neither
truth values nor `null`. -/
def emitPooled : Emission → Constant → Except Error Emission
  | _, .boolean _ | _, .null => .error (.malformed .immediateLiteral)
  | ⟨constants, names, instructions, depth, maxDepth⟩, value =>
      match constants.insert value with
      | .ok (index, constants) =>
          .ok
            (emit ⟨constants, names, instructions, depth, maxDepth⟩ 0
              (.loadConstant index))
      | .error error => .error error

/-- Emits the load of a value. Truth values, `null` and integers of one byte
are part of the instruction; other values are pooled. -/
def emitConstant (emission : Emission) (value : Constant) :
    Except Error Emission :=
  match value with
  | .number (.int number) =>
      if -128 ≤ number.toInt ∧ number.toInt < 128 then
        .ok (emission.emit 0 (.pushInt (number.truncate 8)))
      else emission.emitPooled value
  | .boolean truth => .ok (emission.emit 0 (.pushBoolean truth))
  | .null => .ok (emission.emit 0 .pushNull)
  | _ => emission.emitPooled value

def emitMember : Emission → String → Except Error Emission
  | ⟨constants, names, instructions, depth, maxDepth⟩, name =>
      match names.insert name with
      | .ok (index, names) =>
          .ok
            (emit ⟨constants, names, instructions, depth, maxDepth⟩ 1
              (.getMember index))
      | .error error => .error error

end Emission

/-! ## Steps -/

/-- A piece of lowering that is still to be done. -/
inductive LoweringStep
  | visit (node : TypedExpression)
  | emit (operands : Nat) (instruction : Instruction)
  | constant (value : Constant)
  | member (name : String)

namespace LoweringStep

def size : LoweringStep → Nat
  | .visit node => node.size
  | _ => 0

def conversions (instructions : List Instruction) : List LoweringStep :=
  instructions.map (.emit 1)

/-- The steps that a node comes to: its operands, each followed by its
conversions, and then its operation. -/
def ofNode (literals : Array Constant) :
    TypedExpression → Except Error (List LoweringStep)
  | .literal index _ =>
      match literals[index]? with
      | some value => .ok [.constant value]
      | none => .error (.malformed .unknownLiteral)
  | .slot slot _ => .ok [.emit 0 (.loadLocal slot)]
  | .unary operator inner type =>
      match unaryOperation? operator type with
      | some operation =>
          .ok (.visit inner :: conversions (unboxing inner.type ++ operation))
      | none => .error (.mismatch (.unary operator) (.one type))
  | .member owner name _ => .ok [.visit owner, .member name]
  | .binary operator left right type =>
      match BinaryPlan.of? operator left.type right.type type with
      | some plan =>
          .ok
            (.visit left :: conversions plan.afterLeft ++
              .visit right :: conversions plan.afterRight ++
              .emit 2 plan.operation :: conversions plan.afterOperation)
      | none =>
          .error (.mismatch (.binary operator) (.two left.type right.type))

def totalSize (steps : List LoweringStep) : Nat :=
  steps.foldr (fun step total => step.size + total) 0

theorem totalSize_cons (step : LoweringStep) (steps : List LoweringStep) :
    totalSize (step :: steps) = step.size + totalSize steps := rfl

theorem totalSize_append (left right : List LoweringStep) :
    totalSize (left ++ right) = totalSize left + totalSize right := by
  induction left with
  | nil => simp [totalSize]
  | cons step rest inductionHypothesis =>
      simp [totalSize_cons, inductionHypothesis, Nat.add_assoc]

theorem totalSize_conversions (instructions : List Instruction) :
    totalSize (conversions instructions) = 0 := by
  induction instructions with
  | nil => rfl
  | cons instruction rest inductionHypothesis =>
      have : conversions (instruction :: rest) =
          .emit 1 instruction :: conversions rest := rfl
      rw [this, totalSize_cons, inductionHypothesis]
      rfl

theorem totalSize_ofNode_lt {literals : Array Constant}
    {node : TypedExpression} {steps : List LoweringStep}
    (expanded : ofNode literals node = .ok steps) :
    totalSize steps < node.size := by
  unfold ofNode at expanded
  split at expanded
  · split at expanded <;> cases expanded
    simp [totalSize, size, TypedExpression.size]
  · cases expanded
    simp [totalSize, size, TypedExpression.size]
  · split at expanded <;> cases expanded
    simp [totalSize_cons, totalSize_conversions, size, TypedExpression.size]
  · cases expanded
    simp [totalSize, size, TypedExpression.size]
  · split at expanded <;> cases expanded
    simp [totalSize_cons, totalSize_append, totalSize_conversions, size,
      TypedExpression.size]

def run (literals : Array Constant) (emission : Emission) :
    List LoweringStep → Except Error Emission
  | [] => .ok emission
  | .emit operands instruction :: steps =>
      run literals (emission.emit operands instruction) steps
  | .constant value :: steps =>
      match emission.emitConstant value with
      | .ok emission => run literals emission steps
      | .error error => .error error
  | .member name :: steps =>
      match emission.emitMember name with
      | .ok emission => run literals emission steps
      | .error error => .error error
  | .visit node :: steps =>
      match _expanded : ofNode literals node with
      | .ok first => run literals emission (first ++ steps)
      | .error error => .error error
termination_by steps => (totalSize steps, steps.length)
decreasing_by
  · apply Prod.Lex.right'
    · simp [totalSize_cons, size]
    · simp
  · apply Prod.Lex.right'
    · simp [totalSize_cons, size]
    · simp
  · apply Prod.Lex.right'
    · simp [totalSize_cons, size]
    · simp
  · apply Prod.Lex.left
    have := totalSize_ofNode_lt _expanded
    rw [totalSize_append, totalSize_cons]
    simp only [size]
    omega

end LoweringStep

/-! ## Compiled expressions -/

structure Code where
  constants : Array Constant
  names : Array String
  instructions : Array Instruction
  resultType : StaticType
  maxStack : Nat

namespace Code

def ofTyped (root : TypedExpression) (literals : Array Constant) :
    Except Error Code :=
  match LoweringStep.run literals .empty [.visit root] with
  | .error error => .error error
  | .ok emission =>
      .ok
        { constants := emission.constants.entries
          names := emission.names.entries
          instructions := emission.instructions.push .return
          resultType := root.type
          maxStack := emission.maxDepth }

def ofTokens (locals : LocalMap) (members : MemberTypes) (limit : Nat)
    (tokens : List Token) : Except Error Code :=
  match TypedProgram.ofTokens locals members limit tokens with
  | .ok program => ofTyped program.root program.literals
  | .error error => .error error

end Code

end Formula
