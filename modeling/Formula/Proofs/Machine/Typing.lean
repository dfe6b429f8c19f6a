import Formula.Proofs.Lowering.Plans
import Formula.Proofs.Machine.Conversions

/-!
# Types on the stack

The types of the operands that each instruction takes from the stack and of the
result that it leaves there. Code checks if every instruction finds operands of
its types on the stack that the instructions before it leave.
-/

namespace Formula

/-! ## Instructions -/

namespace Conversion

/-- The kind of number that a conversion takes. -/
def source : Conversion → NumericKind
  | .intToLong | .intToFloat | .intToDouble => .int
  | .longToFloat | .longToDouble | .longToInt => .long
  | .floatToDouble => .float

/-- The kind of number that a conversion leaves. -/
def target : Conversion → NumericKind
  | .longToInt => .int
  | .intToLong => .long
  | .intToFloat | .longToFloat => .float
  | .intToDouble | .longToDouble | .floatToDouble => .double

end Conversion

namespace Instruction

/-- The types that an operation on numbers takes, the right one first. Bits and
shifts are for integers, and the distance of a shift is an int. -/
def numericOperands? (kind : NumericKind) :
    BinaryOperator → Option (List StaticType)
  | .arithmetic _ => some [.number kind, .number kind]
  | .bitwise _ =>
      if kind.isIntegral then some [.number kind, .number kind] else none
  | .shift _ =>
      if kind.isIntegral then some [.number .int, .number kind] else none
  | _ => none

/-- The types that an instruction takes, the right one first, and the one that
it leaves, where the instruction alone decides them. -/
def signature? : Instruction → Option (List StaticType × StaticType)
  | .pushInt _ => some ([], .number .int)
  | .pushBoolean _ => some ([], .boolean)
  | .pushNull => some ([], .null)
  | .unbox kind => some ([⟨.primitive kind, true⟩], ⟨.primitive kind, false⟩)
  | .box kind => some ([⟨.primitive kind, false⟩], ⟨.primitive kind, true⟩)
  | .convert conversion =>
      some ([.number conversion.source], .number conversion.target)
  | .operate (.number kind) code =>
      ((BinaryOperator.ofCode? code).bind (numericOperands? kind)).map
        fun operands => (operands, .number kind)
  | .operate .boolean code =>
      match BinaryOperator.ofCode? code with
      | some (.bitwise _) => some ([.boolean, .boolean], .boolean)
      | _ => none
  | .negate kind => some ([.number kind], .number kind)
  | .complementInt => some ([.number .int], .number .int)
  | .complementLong => some ([.number .long], .number .long)
  | .compareNumbers kind _ => some ([.number kind, .number kind], .boolean)
  | .compareBooleans _ => some ([.boolean, .boolean], .boolean)
  | .logical _ => some ([.boolean, .boolean], .boolean)
  | .not => some ([.boolean], .boolean)
  | .concatenate => some ([.string, .string], .string)
  | .loadConstant _ | .loadLocal _ | .compareReferences _ | .stringify
  | .getMember _ | .return => none

end Instruction

/-! ## Code -/

/-- The type that the local variables at a slot are declared with. -/
def LocalMap.typeAt? (map : LocalMap) (slot : Address) : Option StaticType :=
  let held := map.locals.entries.filterMap fun entry =>
    map.locals.get? entry.1
  (held.find? fun held => held.slot = slot).map Local.type

structure CodeContext where
  constants : Array Constant
  names : Array String
  locals : LocalMap
  members : MemberTypes

namespace CodeContext

/-- The type of the member that an address names in the class of an owner. -/
def memberType? (context : CodeContext) (index : Address)
    (owner : StaticType) : Option StaticType :=
  match context.names[index.val]?, owner.kind with
  | some name, .object className => (context.members className name).toOption
  | _, _ => none

/-- The types on the stack after an instruction, the topmost first, if the
operands that it takes are there. -/
def check (context : CodeContext) (instruction : Instruction)
    (stack : List StaticType) : Option (List StaticType) :=
  match instruction, stack with
  | .loadConstant index, stack =>
      context.constants[index.val]?.map fun value => .ofConstant value :: stack
  | .loadLocal slot, stack => (context.locals.typeAt? slot).map (· :: stack)
  | .compareReferences _, right :: left :: stack =>
      if left.isReference && right.isReference then some (.boolean :: stack)
      else none
  | .stringify, _ :: stack => some (.string :: stack)
  | .getMember index, owner :: stack =>
      (context.memberType? index owner).map (· :: stack)
  | instruction, stack =>
      match instruction.signature? with
      | some (operands, result) =>
          if operands.isPrefixOf stack then
            some (result :: stack.drop operands.length)
          else none
      | none => none

/-- The types on the stack after instructions one after the other. -/
def checkAll (context : CodeContext) :
    List Instruction → List StaticType → Option (List StaticType)
  | [], stack => some stack
  | instruction :: rest, stack =>
      (context.check instruction stack).bind (context.checkAll rest)

theorem check_of_signature? (context : CodeContext)
    {instruction : Instruction} {operands : List StaticType}
    {result : StaticType}
    (signed : instruction.signature? = some (operands, result))
    (stack : List StaticType) :
    context.check instruction (operands ++ stack) = some (result :: stack) := by
  have found : operands.isPrefixOf (operands ++ stack) :=
    List.isPrefixOf_iff_prefix.2 (List.prefix_append operands stack)
  cases instruction with
  | loadConstant | loadLocal | compareReferences | stringify | getMember
  | «return» =>
      cases signed
  | _ =>
      unfold check
      simp only [signed, if_pos found, List.drop_left]

/-- Code that checks does not return. -/
theorem return_not_mem_of_checkAll {context : CodeContext}
    {code : List Instruction} :
    ∀ {before after : List StaticType},
      context.checkAll code before = some after → .return ∉ code := by
  induction code with
  | nil =>
      intro before after checked
      exact List.not_mem_nil
  | cons instruction rest inductionHypothesis =>
      intro before after checked isMember
      obtain ⟨middle, first, others⟩ := Option.bind_eq_some_iff.1 checked
      rcases List.mem_cons.1 isMember with rfl | isLater
      · cases first
      · exact inductionHypothesis others isLater

/-! ## Pieces of code -/

/-- Code turns the topmost types into others, whatever lies below them. -/
def Turns (context : CodeContext) (code : List Instruction)
    (before after : List StaticType) : Prop :=
  ∀ stack, context.checkAll code (before ++ stack) = some (after ++ stack)

variable {context : CodeContext}

theorem turns_nil (types : List StaticType) : context.Turns [] types types :=
  fun _ => rfl

theorem checkAll_append (first second : List Instruction)
    (stack : List StaticType) :
    context.checkAll (first ++ second) stack =
      (context.checkAll first stack).bind (context.checkAll second) := by
  induction first generalizing stack with
  | nil =>
      rfl
  | cons instruction rest inductionHypothesis =>
      rw [List.cons_append, checkAll, checkAll, Option.bind_assoc]
      exact congrArg _ (funext inductionHypothesis)

theorem Turns.append {first second : List Instruction}
    {before middle after : List StaticType}
    (turnsFirst : context.Turns first before middle)
    (turnsSecond : context.Turns second middle after) :
    context.Turns (first ++ second) before after := by
  intro stack
  rw [checkAll_append, turnsFirst]
  exact turnsSecond stack

/-- What lies deeper stays as it is. -/
theorem Turns.above {code : List Instruction}
    {before after : List StaticType} (turns : context.Turns code before after)
    (below : List StaticType) :
    context.Turns code (before ++ below) (after ++ below) := by
  intro stack
  rw [List.append_assoc, List.append_assoc]
  exact turns (below ++ stack)

theorem turns_of_check {instruction : Instruction}
    {before after : List StaticType}
    (checked : ∀ stack,
      context.check instruction (before ++ stack) = some (after ++ stack)) :
    context.Turns [instruction] before after := by
  intro stack
  rw [checkAll, checked]
  rfl

theorem turns_of_signature? {instruction : Instruction}
    {operands : List StaticType} {result : StaticType}
    (signed : instruction.signature? = some (operands, result)) :
    context.Turns [instruction] operands [result] :=
  turns_of_check (context.check_of_signature? signed)

/-! ## Conversions -/

theorem turns_unboxing {type : StaticType} {kind : PrimitiveKind}
    (isPrimitive : type.kind = .primitive kind) :
    context.Turns (unboxing type) [type] [⟨.primitive kind, false⟩] := by
  obtain ⟨_, nullable⟩ := type
  cases isPrimitive
  cases nullable with
  | false =>
      exact turns_nil _
  | true =>
      have unboxed : context.Turns [.unbox kind] [⟨.primitive kind, true⟩]
          [⟨.primitive kind, false⟩] :=
        turns_of_signature? rfl
      exact unboxed

theorem turns_boxing {type : StaticType} {kind : PrimitiveKind}
    (isPrimitive : type.kind = .primitive kind) :
    context.Turns (boxing type) [⟨.primitive kind, false⟩] [type] := by
  obtain ⟨_, nullable⟩ := type
  cases isPrimitive
  cases nullable with
  | false =>
      exact turns_nil _
  | true =>
      have boxed : context.Turns [.box kind] [⟨.primitive kind, false⟩]
          [⟨.primitive kind, true⟩] :=
        turns_of_signature? rfl
      exact boxed

theorem turns_widening {source target : NumericKind}
    (wider : source.rank ≤ target.rank) :
    context.Turns (widening source target) [.number source]
      [.number target] := by
  cases source with
  | int =>
      cases target with
      | int =>
          exact turns_nil _
      | long | float | double =>
          exact turns_of_signature? rfl
  | long =>
      cases target with
      | int =>
          exact absurd wider (by decide)
      | long =>
          exact turns_nil _
      | float | double =>
          exact turns_of_signature? rfl
  | float =>
      cases target with
      | int | long =>
          exact absurd wider (by decide)
      | float =>
          exact turns_nil _
      | double =>
          exact turns_of_signature? rfl
  | double =>
      cases target with
      | int | long | float =>
          exact absurd wider (by decide)
      | double =>
          exact turns_nil _

theorem turns_coercion {type : StaticType} {source target : NumericKind}
    (numeric : type.numeric? = some source)
    (wider : source.rank ≤ target.rank) :
    context.Turns (coercion type target) [type] [.number target] := by
  have unboxed : context.Turns (unboxing type) [type] [.number source] :=
    turns_unboxing (StaticType.kind_of_numeric? numeric)
  simp only [coercion, numeric]
  exact unboxed.append (turns_widening wider)

/-- The distance of a shift becomes an int. -/
theorem turns_distance {type : StaticType} {kind : NumericKind}
    (numeric : type.numeric? = some kind) (integral : kind.isIntegral) :
    context.Turns
      (if type.numeric? = some .long then
        unboxing type ++ [.convert .longToInt]
      else unboxing type) [type] [.number .int] := by
  have unboxed : context.Turns (unboxing type) [type] [.number kind] :=
    turns_unboxing (StaticType.kind_of_numeric? numeric)
  cases kind with
  | int =>
      rw [if_neg (by simp [numeric])]
      exact unboxed
  | long =>
      rw [if_pos numeric]
      exact unboxed.append (turns_of_signature? rfl)
  | float | double =>
      cases integral

theorem turns_stringifying (type : StaticType) :
    context.Turns (stringifying type) [type] [.string] := by
  by_cases isString : type = .string
  · rw [stringifying, if_pos isString, isString]
    exact turns_nil _
  · rw [stringifying, if_neg isString]
    exact turns_of_check fun stack => rfl

end CodeContext

end Formula
