import Formula.Number.Text
import Formula.Text.Escape

/-!
The values of expressions.
-/

namespace Formula

/-- An object of the embedding program, told from every other object by its
identity. -/
structure HostObject where
  identity : Nat
  className : String
  text : String
  deriving DecidableEq, Hashable, Repr

inductive Constant
  | number (value : Number)
  | boolean (value : Bool)
  | string (value : String)
  | null
  | object (value : HostObject)
  deriving DecidableEq, Hashable, Repr

namespace Constant

def kind : Constant → Kind
  | .number value => .primitive (.number value.kind)
  | .boolean _ => .primitive .boolean
  | .string _ => .string
  | .null | .object _ => .object

def toNumber? : Constant → Option Number
  | .number value => some value
  | _ => none

def toBoolean? : Constant → Option Bool
  | .boolean value => some value
  | _ => none

def toString? : Constant → Option String
  | .string value => some value
  | _ => none

def isString (value : Constant) : Bool :=
  value.toString?.isSome

def text : Constant → String
  | .number value => value.text
  | .boolean value => if value then "true" else "false"
  | .string value => value
  | .null => "null"
  | .object value => value.text

/-- The text of a value in an expression: strings stand between quotes. -/
def literalText : Constant → String
  | .string value => quote value
  | value => value.text

end Constant

end Formula
