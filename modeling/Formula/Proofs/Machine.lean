import Formula.Constant.Apply
import Formula.Lowering

/-!
# The stack machine

What the instructions do to a stack of values. An instruction is undefined on
operands that are not the ones it is documented to take; only a division of
integers by zero and an absent operand make it fail.
-/

namespace Formula

/-! ## Instructions on values -/

namespace Conversion

/-- The number that a conversion makes of a number of its source kind. -/
def convert? : Conversion → Number → Option Number
  | .intToLong, .int value => some (Number.widen .long (.int value))
  | .intToFloat, .int value => some (Number.widen .float (.int value))
  | .intToDouble, .int value => some (Number.widen .double (.int value))
  | .longToFloat, .long value => some (Number.widen .float (.long value))
  | .longToDouble, .long value => some (Number.widen .double (.long value))
  | .floatToDouble, .float value => some (Number.widen .double (.float value))
  | .longToInt, .long value => some (.int (value.truncate 32))
  | _, _ => none

end Conversion

namespace Comparison

/-- Whether an order satisfies a comparison; no order holds of a
not-a-number. -/
def holds : Comparison → Option Ordering → Bool
  | .equality operator, order => operator.apply (order == some .eq)
  | .relational operator, order => order.any operator.holds

end Comparison

/-- Whether two references are equal: strings by value, anything else by
identity. A wrapper differs from `null`; two wrappers have no identity here. -/
def Constant.sameReference? : Constant → Constant → Option Bool
  | .string left, .string right => some (left == right)
  | .object left, .object right => some (left.identity == right.identity)
  | .null, .null => some true
  | .null, _ | _, .null => some false
  | .string _, .object _ | .object _, .string _ => some false
  | _, _ => none

/-! ## Steps -/

/-- How far code has come: to a stack whose top comes first, to a value that it
returns, to an instruction that fails, or to one that is undefined. -/
inductive Progress
  | running (stack : List Constant)
  | returned (value : Constant)
  | failed (instruction : Instruction)
  | undefined

namespace Progress

/-- Goes on from the stack, if there is one. -/
def andThen (progress : Progress) (next : List Constant → Progress) :
    Progress :=
  match progress with
  | .running stack => next stack
  | other => other

def pushing (stack : List Constant) : Option Constant → Progress
  | some value => .running (value :: stack)
  | none => .undefined

end Progress

/-- What instructions refer to: the pools, the values of the slots, and the
members of objects. -/
structure Machine where
  constants : Array Constant
  names : Array String
  locals : Address → Constant
  members : ObjectMembers

namespace Machine

/-- The operation of a code on two numbers of a kind; the distance of a shift
is an int. -/
def operateNumbers (kind : NumericKind) (code : UInt8) (left right : Number)
    (stack : List Constant) : Progress :=
  match BinaryOperator.ofCode? code with
  | some (.arithmetic operator) =>
      if left.kind = kind ∧ right.kind = kind then
        match (left.pair right).arithmetic? operator with
        | some value => .running (.number value :: stack)
        | none => .failed (.operate (.number kind) code)
      else .undefined
  | some (.bitwise operator) =>
      if left.kind = kind ∧ right.kind = kind then
        .pushing stack (((left.pair right).bitwise? operator).map .number)
      else .undefined
  | some (.shift operator) =>
      if left.kind = kind ∧ right.kind = .int then
        .pushing stack ((left.shift? operator right).map .number)
      else .undefined
  | _ => .undefined

def operateBooleans (code : UInt8) (left right : Bool)
    (stack : List Constant) : Progress :=
  match BinaryOperator.ofCode? code with
  | some (.bitwise operator) =>
      .running (.boolean (operator.applyBool left right) :: stack)
  | _ => .undefined

/-- The selection of a member; it fails on `null` and without the member. -/
def select (machine : Machine) (index : Address) (owner : Constant)
    (stack : List Constant) : Progress :=
  match machine.names[index.val]?, owner with
  | some name, .object host =>
      match machine.members host name with
      | some value => .running (value :: stack)
      | none => .failed (.getMember index)
  | some _, .null => .failed (.getMember index)
  | _, _ => .undefined

def step (machine : Machine) (instruction : Instruction)
    (stack : List Constant) : Progress :=
  match instruction, stack with
  | .loadConstant index, stack => .pushing stack machine.constants[index.val]?
  | .pushInt value, stack =>
      .running (.number (.int (value.signExtend 32)) :: stack)
  | .pushBoolean value, stack => .running (.boolean value :: stack)
  | .pushNull, stack => .running (.null :: stack)
  | .loadLocal slot, stack => .running (machine.locals slot :: stack)
  | .unbox kind, value :: stack =>
      if value = .null then .failed (.unbox kind)
      else if value.kind = .primitive kind then .running (value :: stack)
      else .undefined
  | .box kind, value :: stack =>
      if value.kind = .primitive kind then .running (value :: stack)
      else .undefined
  | .convert conversion, .number value :: stack =>
      .pushing stack ((conversion.convert? value).map .number)
  | .operate (.number kind) code, .number right :: .number left :: stack =>
      operateNumbers kind code left right stack
  | .operate .boolean code, .boolean right :: .boolean left :: stack =>
      operateBooleans code left right stack
  | .negate kind, .number value :: stack =>
      if value.kind = kind then .running (.number value.negate :: stack)
      else .undefined
  | .complementInt, .number (.int value) :: stack =>
      .running (.number (.int (~~~value)) :: stack)
  | .complementLong, .number (.long value) :: stack =>
      .running (.number (.long (~~~value)) :: stack)
  | .compareNumbers kind comparison, .number right :: .number left :: stack =>
      if left.kind = kind ∧ right.kind = kind then
        .running (.boolean (comparison.holds (left.pair right).order?) :: stack)
      else .undefined
  | .compareBooleans operator, .boolean right :: .boolean left :: stack =>
      .running (.boolean (operator.apply (left == right)) :: stack)
  | .compareReferences operator, right :: left :: stack =>
      .pushing stack
        ((left.sameReference? right).map fun same =>
          .boolean (operator.apply same))
  | .logical operator, .boolean right :: .boolean left :: stack =>
      .running (.boolean (operator.apply left right) :: stack)
  | .not, .boolean value :: stack => .running (.boolean (!value) :: stack)
  | .stringify, value :: stack => .running (.string value.text :: stack)
  | .concatenate, .string right :: .string left :: stack =>
      .running (.string (left ++ right) :: stack)
  | .getMember index, owner :: stack => machine.select index owner stack
  | .return, value :: _ => .returned value
  | _, _ => .undefined

def run (machine : Machine) : List Instruction → List Constant → Progress
  | [], stack => .running stack
  | instruction :: rest, stack =>
      (machine.step instruction stack).andThen (machine.run rest)

end Machine

def Code.machine (code : Code) (locals : Address → Constant)
    (members : ObjectMembers) : Machine :=
  ⟨code.constants, code.names, locals, members⟩

/-! ## Running -/

namespace Progress

theorem andThen_assoc (progress : Progress)
    (next last : List Constant → Progress) :
    (progress.andThen next).andThen last =
      progress.andThen fun stack => (next stack).andThen last := by
  cases progress <;> rfl

theorem andThen_running (progress : Progress) :
    progress.andThen .running = progress := by
  cases progress <;> rfl

/-- Code fails at an instruction that can fail, or comes to a stack that
satisfies a condition. -/
def Reaches (progress : Progress) (post : List Constant → Prop) : Prop :=
  (∃ instruction, progress = .failed instruction ∧ instruction.canFail) ∨
    ∃ stack, progress = .running stack ∧ post stack

namespace Reaches

theorem andThen {progress : Progress} {next : List Constant → Progress}
    {middle post : List Constant → Prop} (reached : progress.Reaches middle)
    (goesOn : ∀ stack, middle stack → (next stack).Reaches post) :
    (progress.andThen next).Reaches post := by
  rcases reached with ⟨instruction, rfl, mayFail⟩ | ⟨stack, rfl, holds⟩
  · exact .inl ⟨instruction, rfl, mayFail⟩
  · exact goesOn stack holds

theorem weaken {progress : Progress} {post other : List Constant → Prop}
    (reached : progress.Reaches post)
    (implied : ∀ stack, post stack → other stack) :
    progress.Reaches other := by
  rcases reached with failed | ⟨stack, running, holds⟩
  · exact .inl failed
  · exact .inr ⟨stack, running, implied stack holds⟩

end Reaches

end Progress

namespace Machine

variable (machine : Machine)

theorem run_append (first second : List Instruction) (stack : List Constant) :
    machine.run (first ++ second) stack =
      (machine.run first stack).andThen (machine.run second) := by
  induction first generalizing stack with
  | nil =>
      rfl
  | cons instruction rest inductionHypothesis =>
      have continued :
          machine.run (rest ++ second) = fun stack =>
            (machine.run rest stack).andThen (machine.run second) :=
        funext inductionHypothesis
      rw [List.cons_append, run, run, continued, Progress.andThen_assoc]

theorem run_singleton (instruction : Instruction) (stack : List Constant) :
    machine.run [instruction] stack = machine.step instruction stack :=
  Progress.andThen_running _

/-- Code reaches what its second part makes of what its first part reaches. -/
theorem reaches_append {first second : List Instruction}
    {stack : List Constant} {middle post : List Constant → Prop}
    (reached : (machine.run first stack).Reaches middle)
    (goesOn : ∀ stack, middle stack → (machine.run second stack).Reaches post) :
    (machine.run (first ++ second) stack).Reaches post := by
  rw [run_append]
  exact reached.andThen goesOn

end Machine

end Formula
