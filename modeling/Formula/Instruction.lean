import Formula.LocalMap

/-!
The instructions of a stack machine.
-/

namespace Formula

/-! ## Parameters -/

inductive Comparison
  | equality (operator : EqualityOperator)
  | relational (operator : RelationalOperator)
  deriving DecidableEq, Repr

namespace Comparison

def name : Comparison → String
  | .equality .equal => "Eq"
  | .equality .notEqual => "Ne"
  | .relational .less => "Lt"
  | .relational .greater => "Gt"
  | .relational .lessOrEqual => "Le"
  | .relational .greaterOrEqual => "Ge"

end Comparison

namespace BinaryOperator

def comparison? : BinaryOperator → Option Comparison
  | .equality operator => some (.equality operator)
  | .relational operator => some (.relational operator)
  | _ => none

/-- The byte that stands for an operator in an instruction: the character of
its symbol, and a letter for the unsigned shift. -/
def code? : BinaryOperator → Option UInt8
  | .arithmetic .add => some '+'.toUInt8
  | .arithmetic .subtract => some '-'.toUInt8
  | .arithmetic .multiply => some '*'.toUInt8
  | .arithmetic .divide => some '/'.toUInt8
  | .arithmetic .remainder => some '%'.toUInt8
  | .bitwise .and => some '&'.toUInt8
  | .bitwise .or => some '|'.toUInt8
  | .bitwise .xor => some '^'.toUInt8
  | .shift .left => some '<'.toUInt8
  | .shift .right => some '>'.toUInt8
  | .shift .rightUnsigned => some 'u'.toUInt8
  | _ => none

def ofCode? (code : UInt8) : Option BinaryOperator :=
  all.find? fun operator => operator.code? = some code

end BinaryOperator

/-- The conversions of numbers: the widening ones, and the narrowing of a shift
distance. -/
inductive Conversion
  | intToLong
  | intToFloat
  | intToDouble
  | longToFloat
  | longToDouble
  | floatToDouble
  | longToInt
  deriving DecidableEq, Repr

def Conversion.name : Conversion → String
  | .intToLong => "I2L"
  | .intToFloat => "I2F"
  | .intToDouble => "I2D"
  | .longToFloat => "L2F"
  | .longToDouble => "L2D"
  | .floatToDouble => "F2D"
  | .longToInt => "L2I"

/-! ## Instructions -/

/-- One instruction. Each takes its operands from the stack, the right one from
the top, and leaves one result. -/
inductive Instruction
  | loadConstant (index : Address)
  | pushInt (value : BitVec 8)
  | pushBoolean (value : Bool)
  | pushNull
  | loadLocal (slot : Address)
  | unbox (kind : PrimitiveKind)
  | box (kind : PrimitiveKind)
  | convert (conversion : Conversion)
  | operate (kind : PrimitiveKind) (code : UInt8)
  | negate (kind : NumericKind)
  | complementInt
  | complementLong
  | compareNumbers (kind : NumericKind) (comparison : Comparison)
  | compareBooleans (operator : EqualityOperator)
  | compareReferences (operator : EqualityOperator)
  | logical (operator : LogicalOperator)
  | not
  | stringify
  | concatenate
  | getMember (name : Address)
  | return
  deriving DecidableEq, Repr

namespace Instruction

/-- Whether running the instruction may fail: division of integers by zero,
unboxing `null`, selecting a member of `null`. -/
def canFail : Instruction → Bool
  | .operate (.number .int) code | .operate (.number .long) code =>
      code = '/'.toUInt8 || code = '%'.toUInt8
  | .unbox _ | .getMember _ => true
  | _ => false

def familyName : PrimitiveKind → String
  | .number kind => kind.name
  | .boolean => "Bool"

private def parameterized (name parameter : String) : String :=
  s!"{name}({parameter})"

def text : Instruction → String
  | .loadConstant index => parameterized "ConstLoad" (toString index.val)
  | .pushInt value => parameterized "ConstInt" (toString value.toInt)
  | .pushBoolean value => if value then "ConstTrue" else "ConstFalse"
  | .pushNull => "ConstNull"
  | .loadLocal slot => parameterized "LoadLocal" (toString slot.val)
  | .unbox kind => parameterized "Unbox" kind.wrapperName
  | .box kind => parameterized "Box" kind.wrapperName
  | .convert conversion => conversion.name
  | .operate kind code =>
      parameterized (familyName kind ++ "BinOp")
        (((BinaryOperator.ofCode? code).map BinaryOperator.symbol).getD "?")
  | .negate kind => "Neg" ++ kind.name
  | .complementInt => "BitNotInt"
  | .complementLong => "BitNotLong"
  | .compareNumbers kind comparison =>
      parameterized (kind.name ++ "CmpOp") comparison.name
  | .compareBooleans operator =>
      parameterized "BoolCmpOp" (Comparison.equality operator).name
  | .compareReferences operator =>
      parameterized "RefCmpOp" (Comparison.equality operator).name
  | .logical .and => "And"
  | .logical .or => "Or"
  | .not => "Not"
  | .stringify => "Stringify"
  | .concatenate => "Concat"
  | .getMember name => parameterized "GetMember" (toString name.val)
  | .return => "Return"

end Instruction

end Formula
