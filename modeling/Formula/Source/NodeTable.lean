import Formula.Error
import Formula.Token

/-!
A table of the sub-expressions that were read. A node names its operands by
their indices, and the tokens of an expression are taken from the table one by
one, so that neither reading nor listing follows the depth of an expression.
-/

namespace Formula

/-- A sub-expression: its token until that is taken, its operands and its
height. -/
structure Node where
  token? : Option Token
  left? : Option Nat
  right? : Option Nat
  height : Nat
  deriving DecidableEq, Repr

def Node.operands (node : Node) : List Nat :=
  node.left?.toList ++ node.right?.toList

def Node.taken (node : Node) : Node := { node with token? := none }

/-- The nodes of all sub-expressions, and the indices of those that no operator
has claimed, latest first. -/
structure NodeTable where
  nodes : Array Node
  operands : List Nat
  deriving DecidableEq, Repr

namespace NodeTable

def empty : NodeTable := ⟨#[], []⟩

def heights? (nodes : Array Node) (indices : List Nat) : Option (List Nat) :=
  indices.mapM fun index => nodes[index]?.map Node.height

/-- Adds a node that begins at `offset`, unless it is too high. An operand that
is not in the table is missing. -/
def push (limit offset : Nat) (table : NodeTable) (token : Token)
    (left? right? : Option Nat) : Except Error NodeTable :=
  match heights? table.nodes (left?.toList ++ right?.toList) with
  | none => .error (.malformed .missingOperand)
  | some heights =>
      let height := 1 + heights.max?.getD 0
      if limit < height then .error (.written offset (.nestedTooDeep limit))
      else
        .ok ⟨table.nodes.push ⟨some token, left?, right?, height⟩,
          table.nodes.size :: table.operands⟩

/-- Claims the latest operand. -/
def pop (table : NodeTable) : Except Error (Nat × NodeTable) :=
  match table.operands with
  | operand :: rest => .ok (operand, { table with operands := rest })
  | [] => .error (.malformed .missingOperand)

/-! ## Listing -/

theorem countP_set_taken_lt {nodes : Array Node} {index : Nat}
    (inside : index < nodes.size) {token : Token}
    (stands : nodes[index].token? = some token) :
    (nodes.set index nodes[index].taken).countP (·.token?.isSome) <
      nodes.countP (·.token?.isSome) := by
  have hasToken : nodes[index].token?.isSome = true := by
    rw [stands]
    rfl
  have isTaken : nodes[index].taken.token?.isSome = false := rfl
  have counted : 0 < nodes.countP (·.token?.isSome) :=
    Array.countP_pos_iff.2
      ⟨nodes[index], Array.getElem_mem inside, hasToken⟩
  rw [Array.countP_set, if_pos hasToken, isTaken, if_neg Bool.false_ne_true]
  omega

/-- Takes the tokens of the nodes that wait, each before those of its operands,
after `written`, which is in reverse. A node that is not in the table has no
token. -/
def tokensFrom (nodes : Array Node) (written : List Token) :
    List Nat → Except Error (List Token)
  | [] => .ok written.reverse
  | index :: waiting =>
      if inside : index < nodes.size then
        match stands : nodes[index].token? with
        | some token =>
            tokensFrom (nodes.set index nodes[index].taken) (token :: written)
              (nodes[index].operands ++ waiting)
        | none => .error (.malformed .usedTwice)
      else .error (.malformed .usedTwice)
termination_by nodes.countP (·.token?.isSome)
decreasing_by exact countP_set_taken_lt inside stands

/-- The tokens of the expression that a node stands for. -/
def tokens (nodes : Array Node) (root : Nat) : Except Error (List Token) :=
  tokensFrom nodes [] [root]

end NodeTable

end Formula
