/-!
The kinds of values that an expression computes with.
-/

namespace Formula

inductive NumericKind
  | int
  | long
  | float
  | double
  deriving DecidableEq, Repr

namespace NumericKind

def all : List NumericKind := [.int, .long, .float, .double]

def rank : NumericKind → Nat
  | .int => 0
  | .long => 1
  | .float => 2
  | .double => 3

/-- The kind in which two numbers meet: the wider of their kinds. -/
def promote (left right : NumericKind) : NumericKind :=
  if left.rank < right.rank then right else left

def isIntegral : NumericKind → Bool
  | .int | .long => true
  | .float | .double => false

def name : NumericKind → String
  | .int => "Int"
  | .long => "Long"
  | .float => "Float"
  | .double => "Double"

end NumericKind

inductive PrimitiveKind
  | number (kind : NumericKind)
  | boolean
  deriving DecidableEq, Repr

def PrimitiveKind.name : PrimitiveKind → String
  | .number kind => kind.name
  | .boolean => "Boolean"

/-- The kinds of values; `null` counts as an object. -/
inductive Kind
  | primitive (kind : PrimitiveKind)
  | string
  | object
  deriving DecidableEq, Repr

def Kind.name : Kind → String
  | .primitive kind => kind.name
  | .string => "String"
  | .object => "Object"

end Formula
