import Formula.Evaluation
import Formula.Lowering
import Formula.Source.Parser

/-!
Sources read, evaluated and compiled under one set of keywords and one limit on
nesting.
-/

namespace Formula

/-- How sources are read: the keywords, and the greatest height of an
expression, which also bounds evaluation and compilation. -/
structure Language where
  keywords : Keywords
  limit : Nat

namespace Language

/-- The usual keywords with expressions of up to a thousand levels. -/
def standard : Language := ⟨.standard, 1000⟩

def parse (language : Language) (source : String) :
    Except Error (List Token) := do
  let (root, nodes) ←
    Parser.ofSource language.keywords language.limit source
  NodeTable.tokens nodes root

/-- The value of a source for which a resolver answers, and the state in which
the resolver is left. -/
def evaluateWith {σ : Type} (language : Language) (members : ObjectMembers)
    (resolver : Resolver σ) (state : σ) (source : String) :
    Except Error Constant × σ :=
  match language.parse source with
  | .error error => (.error error, state)
  | .ok tokens =>
      let reduction :=
        (evaluation members resolver language.limit).reduce language.limit state
          tokens
      (reduction.result, reduction.state)

/-- The value of a source over variables and the names that were asked for,
latest first. -/
def evaluate (language : Language) (members : ObjectMembers)
    (bindings : Variables) (source : String) :
    Except Error Constant × List String :=
  language.evaluateWith members bindings.resolver [] source

def compile (language : Language) (locals : LocalMap) (members : MemberTypes)
    (source : String) : Except Error Code :=
  match language.parse source with
  | .error error => .error error
  | .ok tokens => Code.ofTokens locals members language.limit tokens

end Language

end Formula
