import Formula.Dictionary
import Formula.Reduction

/-!
Evaluation: reducing an expression to a value while a resolver answers for its
references.
-/

namespace Formula

/-- What answers for references. It may keep a state, and its answer may be
another reference. -/
abbrev Resolver (σ : Type) := String → σ → Except Error Operand × σ

/-- Follows references until a value comes back, asking at most `hops` times;
`limit` is the number of questions allowed in all. -/
def Resolver.follow {σ : Type} (resolver : Resolver σ) (limit : Nat) :
    Nat → Operand → σ → Except Error Constant × σ
  | _, .constant value, state => (.ok value, state)
  | 0, .reference name, state =>
      (.error (.malformed (.endlessReference name limit)), state)
  | hops + 1, .reference name, state =>
      match resolver name state with
      | (.ok operand, state) => resolver.follow limit hops operand state
      | (.error error, state) => (.error error, state)

/-- A reference that is answered with a value is followed no further. -/
theorem Resolver.follow_of_answer {σ : Type} {resolver : Resolver σ}
    {name : String} {state : σ} {value : Constant}
    (answer : (resolver name state).1 = .ok (.constant value))
    (limit hops : Nat) :
    (resolver.follow limit (hops + 1) (.reference name) state).1 =
      .ok value := by
  cases called : resolver name state with
  | mk result next =>
      rw [called] at answer
      cases answer
      simp [follow, called]

/-- The value of a member; the member must be named, not computed. -/
def Constant.selectOperand (members : ObjectMembers) (owner : Constant) :
    Operand → Except Error Constant
  | .reference name => owner.select members name
  | .constant value =>
      .error (.unsupported (.binary .member) (.two owner.kind value.kind))

def evaluation {σ : Type} (members : ObjectMembers) (resolver : Resolver σ)
    (limit : Nat) : Algebra σ Constant where
  operand := resolver.follow limit limit
  unary := Constant.applyUnary
  binary := Constant.apply
  member := Constant.selectOperand members
  decides? := Constant.decides?

/-! ## Variables -/

abbrev Variables := Dictionary String Operand

/-- Answers for the variables and keeps the names asked for, latest first. -/
def Variables.resolver (bindings : Variables) : Resolver (List String) :=
  fun name asked =>
    match bindings.get? name with
    | some operand => (.ok operand, name :: asked)
    | none => (.error (.unknownReference name), name :: asked)

def Variables.evaluate (bindings : Variables) (members : ObjectMembers)
    (limit : Nat) (tokens : List Token) :
    Reduction (List String) Constant :=
  (evaluation members bindings.resolver limit).reduce limit [] tokens

end Formula
