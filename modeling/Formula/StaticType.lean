import Formula.Constant

/-!
The types that are known before evaluation.
-/

namespace Formula

/-- What a type says about its values, apart from whether they may be absent. -/
inductive TypeKind
  | primitive (kind : PrimitiveKind)
  | string
  | object (className : String)
  | null
  deriving DecidableEq, Repr

/-- A type. A nullable primitive is a wrapper, held by reference; any other
nullable type admits `null`. -/
structure StaticType where
  kind : TypeKind
  nullable : Bool
  deriving DecidableEq, Repr

namespace StaticType

def number (kind : NumericKind) : StaticType :=
  ⟨.primitive (.number kind), false⟩

def boolean : StaticType := ⟨.primitive .boolean, false⟩

/-- The type of strings that are never absent. -/
def string : StaticType := ⟨.string, false⟩

/-- The type of `null`. -/
def null : StaticType := ⟨.null, true⟩

def ofConstant : Constant → StaticType
  | .number value => number value.kind
  | .boolean _ => boolean
  | .string _ => string
  | .null => null
  | .object value => ⟨.object value.className, false⟩

def unboxed (type : StaticType) : StaticType :=
  { type with nullable := false }

/-- The primitive kind of a primitive or its wrapper. -/
def primitive? (type : StaticType) : Option PrimitiveKind :=
  match type.kind with
  | .primitive kind => some kind
  | _ => none

def numeric? (type : StaticType) : Option NumericKind :=
  match type.kind with
  | .primitive (.number kind) => some kind
  | _ => none

def isBoolean (type : StaticType) : Bool :=
  type.kind = .primitive .boolean

def isString (type : StaticType) : Bool :=
  type.kind = .string

def isWrapper (type : StaticType) : Bool :=
  type.nullable && type.primitive?.isSome

/-- Whether values are held by reference and may be compared with `null`. -/
def isReference (type : StaticType) : Bool :=
  type.nullable || type.primitive?.isNone

def slotWidth (type : StaticType) : Nat :=
  if type = number .long ∨ type = number .double then 2 else 1

theorem slotWidth_pos (type : StaticType) : 0 < type.slotWidth := by
  unfold slotWidth
  split <;> decide

def runtimeKind (type : StaticType) : Kind :=
  match type.kind with
  | .primitive kind => .primitive kind
  | .string => .string
  | .object _ | .null => .object

end StaticType

/-! ## Names -/

def PrimitiveKind.typeName : PrimitiveKind → String
  | .number .int => "int"
  | .number .long => "long"
  | .number .float => "float"
  | .number .double => "double"
  | .boolean => "boolean"

def PrimitiveKind.wrapperName : PrimitiveKind → String
  | .number .int => "Integer"
  | .number .long => "Long"
  | .number .float => "Float"
  | .number .double => "Double"
  | .boolean => "Boolean"

namespace StaticType

def name (type : StaticType) : String :=
  match type.kind with
  | .primitive kind => if type.nullable then kind.wrapperName else kind.typeName
  | .string => if type.nullable then "String?" else "String"
  | .object className => className
  | .null => "null"

/-- The types that can be named apart from the classes of objects. -/
def named : List StaticType :=
  let kinds : List TypeKind :=
    [.primitive (.number .int), .primitive (.number .long),
      .primitive (.number .float), .primitive (.number .double),
      .primitive .boolean, .string]
  kinds.flatMap fun kind => [⟨kind, false⟩, ⟨kind, true⟩]

def ofName? (text : String) : Option StaticType :=
  named.find? fun type => type.name = text

def unknownNameMessage (text : String) : String :=
  s!"unknown type '{text}'"

end StaticType

end Formula
