import Formula.Proofs.Typing.Elaboration
import Mathlib.Data.List.Forall2

/-!
# Typed expressions and their tokens

A typed expression keeps every token it was built from, in the order of the
tokens. Its literals are numbered in this order, its slots are those of the
names that were written, and each of its parts carries the type that its own
operands give it.
-/

namespace Formula

namespace TypedExpression

/-- One part of a typed expression without its operands. -/
inductive Entry
  | literal (index : Nat) (type : StaticType)
  | slot (address : Address) (type : StaticType)
  | unary (operator : UnaryOperator)
  | binary (operator : BinaryOperator)
  | memberName (name : String)

/-- The parts of a typed expression, each operator before its operands. A
selection is listed as its operator, its owner and the name of the member. -/
def entries : TypedExpression → List Entry
  | .literal index type => [.literal index type]
  | .slot address type => [.slot address type]
  | .unary operator inner _ => .unary operator :: inner.entries
  | .member owner name _ =>
      .binary .member :: (owner.entries ++ [.memberName name])
  | .binary operator left right _ =>
      .binary operator :: (left.entries ++ right.entries)

/-- The position in the table of literals that an entry points to. -/
def Entry.literalIndex? : Entry → Option Nat
  | .literal index _ => some index
  | _ => none

/-- The positions in the table of literals that an expression points to, from
left to right. -/
def literalIndices (expression : TypedExpression) : List Nat :=
  expression.entries.filterMap Entry.literalIndex?

theorem literalIndices_member (owner : TypedExpression) (name : String)
    (type : StaticType) :
    (member owner name type).literalIndices = owner.literalIndices := by
  have listed : (member owner name type).literalIndices =
      owner.literalIndices ++ [] := List.filterMap_append
  rw [listed, List.append_nil]

theorem literalIndices_binary (operator : BinaryOperator)
    (left right : TypedExpression) (type : StaticType) :
    (binary operator left right type).literalIndices =
      left.literalIndices ++ right.literalIndices := by
  exact List.filterMap_append

/-- Every operator and every selection carries the type that its operands
give. -/
def HasResults (members : MemberTypes) : TypedExpression → Prop
  | .literal _ _ | .slot _ _ => True
  | .unary operator inner type =>
      StaticType.unary operator inner.type = .ok type ∧
        inner.HasResults members
  | .member owner name type =>
      (∃ className, owner.type.kind = .object className ∧
        members className name = .ok type) ∧
        owner.HasResults members
  | .binary operator left right type =>
      StaticType.binary operator left.type right.type = .ok type ∧
        left.HasResults members ∧ right.HasResults members

/-- What an entry may stand for: a literal for the constant that is at its
place in the table, a slot for the name of the local variable that it holds,
and an operator or the name of a member for itself. -/
inductive Entry.StandsFor (locals : LocalMap) (literals : Array Constant) :
    Entry → Token → Prop
  | literal {index : Nat} {value : Constant}
      (found : literals[index]? = some value) :
      StandsFor locals literals (.literal index (.ofConstant value))
        (.operand (.constant value))
  | slot {name : String} {held : Local} (found : locals.get name = .ok held) :
      StandsFor locals literals (.slot held.slot held.type)
        (.operand (.reference name))
  | unary (operator : UnaryOperator) :
      StandsFor locals literals (.unary operator) (.unary operator)
  | binary (operator : BinaryOperator) :
      StandsFor locals literals (.binary operator) (.binary operator)
  | memberName (name : String) :
      StandsFor locals literals (.memberName name)
        (.operand (.reference name))

end TypedExpression

def Token.constant? : Token → Option Constant
  | .operand (.constant value) => some value
  | _ => none

theorem Expression.constants_binary (operator : BinaryOperator)
    (left right : Expression) :
    (binary operator left right).tokens.filterMap Token.constant? =
      left.tokens.filterMap Token.constant? ++
        right.tokens.filterMap Token.constant? := by
  exact List.filterMap_append

theorem Expression.constants_reference (name : String) :
    (operand (.reference name)).tokens.filterMap Token.constant? = [] := by
  rfl

namespace Elaborates

open TypedExpression (Entry)

variable {locals : LocalMap} {members : MemberTypes}
  {literals next : Array Constant} {expression : Expression}
  {typed : TypedExpression}

/-- An entry stands for the same token when literals are added. -/
theorem standsFor_within {entry : Entry} {token : Token}
    (elaborated : Elaborates locals members literals expression typed next)
    (stands : entry.StandsFor locals literals token) :
    entry.StandsFor locals next token := by
  cases stands with
  | literal found =>
      exact .literal (elaborated.literals_within found)
  | slot found =>
      exact .slot found
  | unary operator =>
      exact .unary operator
  | binary operator =>
      exact .binary operator
  | memberName name =>
      exact .memberName name

/-- The entries stand for the tokens one by one. -/
theorem entries_standFor
    (elaborated : Elaborates locals members literals expression typed next) :
    List.Forall₂ (Entry.StandsFor locals next) typed.entries
      expression.tokens := by
  induction elaborated with
  | literal literals value =>
      exact .cons (.literal Array.getElem?_push_size) .nil
  | slot literals found =>
      exact .cons (.slot found) .nil
  | unary operands defined inductionHypothesis =>
      exact .cons (.unary _) inductionHypothesis
  | member operands isObject found inductionHypothesis =>
      exact .cons (.binary .member)
        (List.rel_append inductionHypothesis (.cons (.memberName _) .nil))
  | binary leftOperands rightOperands defined leftHypothesis
      rightHypothesis =>
      -- The right side only adds literals to those of the left side.
      have leftStands := leftHypothesis.imp fun entry token stands =>
        rightOperands.standsFor_within stands
      exact .cons (.binary _) (List.rel_append leftStands rightHypothesis)

/-- The literals are numbered from left to right, after those that are in the
table. -/
theorem range_size
    (elaborated : Elaborates locals members literals expression typed next) :
    List.range next.size =
      List.range literals.size ++ typed.literalIndices := by
  induction elaborated with
  | literal literals value =>
      rw [Array.size_push, List.range_succ]
      rfl
  | slot literals found =>
      exact (List.append_nil _).symm
  | unary operands defined inductionHypothesis =>
      exact inductionHypothesis
  | member operands isObject found inductionHypothesis =>
      rw [TypedExpression.literalIndices_member]
      exact inductionHypothesis
  | binary leftOperands rightOperands defined leftHypothesis
      rightHypothesis =>
      rw [TypedExpression.literalIndices_binary, rightHypothesis,
        leftHypothesis, List.append_assoc]

/-- The table receives the constants among the tokens, in their order, and
nothing else. -/
theorem toList_literals
    (elaborated : Elaborates locals members literals expression typed next) :
    next.toList =
      literals.toList ++ expression.tokens.filterMap Token.constant? := by
  induction elaborated with
  | literal literals value =>
      exact Array.toList_push
  | slot literals found =>
      exact (List.append_nil _).symm
  | unary operands defined inductionHypothesis =>
      exact inductionHypothesis
  | member operands isObject found inductionHypothesis =>
      rw [Expression.constants_binary, Expression.constants_reference,
        List.append_nil]
      exact inductionHypothesis
  | binary leftOperands rightOperands defined leftHypothesis
      rightHypothesis =>
      rw [Expression.constants_binary, rightHypothesis, leftHypothesis,
        List.append_assoc]

/-- Each part carries the type that its operands give. -/
theorem hasResults
    (elaborated : Elaborates locals members literals expression typed next) :
    typed.HasResults members := by
  induction elaborated with
  | literal | slot =>
      trivial
  | unary operands defined inductionHypothesis =>
      exact ⟨StaticType.unary_eq_ok_iff.2 defined, inductionHypothesis⟩
  | member operands isObject found inductionHypothesis =>
      exact ⟨⟨_, isObject, found⟩, inductionHypothesis⟩
  | binary leftOperands rightOperands defined leftHypothesis
      rightHypothesis =>
      exact ⟨StaticType.binary_eq_ok_iff.2 defined, leftHypothesis,
        rightHypothesis⟩

end Elaborates

/-- Typing loses nothing and invents nothing. The parts of the typed expression
stand for the tokens one by one and in the same order, its literals point to
the places of the table in order, the table holds the constants among the
tokens and nothing else, and each part carries the type that its operands
give. -/
theorem TypedProgram.entries_of_ofTokens {locals : LocalMap}
    {members : MemberTypes} {limit : Nat} {tokens : List Token}
    {program : TypedProgram}
    (typed : TypedProgram.ofTokens locals members limit tokens =
      .ok program) :
    List.Forall₂ (TypedExpression.Entry.StandsFor locals program.literals)
        program.root.entries tokens ∧
      program.root.literalIndices = List.range program.literals.size ∧
        program.literals.toList = tokens.filterMap Token.constant? ∧
          program.root.HasResults members := by
  obtain ⟨expression, rfl, elaborated, _⟩ :=
    TypedProgram.ofTokens_eq_ok_iff.1 typed
  have numbered : List.range program.literals.size =
      [] ++ program.root.literalIndices := elaborated.range_size
  have held : program.literals.toList =
      [] ++ expression.tokens.filterMap Token.constant? :=
    elaborated.toList_literals
  rw [List.nil_append] at numbered held
  exact ⟨elaborated.entries_standFor, numbered.symm, held,
    elaborated.hasResults⟩

/-- The tokens of `2 * cart.total + 2`, where the literal `2` is kept twice. -/
theorem entries_of_repeated_literal :
    let locals := LocalMap.empty.insert "cart" 3 ⟨.object "Cart", true⟩
    let members := MemberTypes.none.insert "Cart" "total" (.number .long)
    let two : Constant := .number (.int 2)
    let tokens : List Token :=
      [.binary (.arithmetic .add), .binary (.arithmetic .multiply),
        .operand (.constant two), .binary .member,
        .operand (.reference "cart"), .operand (.reference "total"),
        .operand (.constant two)]
    let root : TypedExpression :=
      .binary (.arithmetic .add)
        (.binary (.arithmetic .multiply) (.literal 0 (.number .int))
          (.member (.slot 3 ⟨.object "Cart", true⟩) "total" (.number .long))
          (.number .long))
        (.literal 1 (.number .int)) (.number .long)
    TypedProgram.ofTokens locals members 4 tokens =
        .ok ⟨root, #[two, two]⟩ ∧
      List.Forall₂ (TypedExpression.Entry.StandsFor locals #[two, two])
          root.entries tokens ∧
        root.literalIndices = List.range 2 ∧
          [two, two] = tokens.filterMap Token.constant? ∧
            root.HasResults members := by
  intro locals members two tokens root
  have cart : locals.get "cart" = .ok ⟨3, ⟨.object "Cart", true⟩⟩ := by
    rw [LocalMap.get_insert, if_pos rfl]
  have selection : Elaborates locals members #[two]
      (.binary .member (.operand (.reference "cart"))
        (.operand (.reference "total")))
      (.member (.slot 3 ⟨.object "Cart", true⟩) "total" (.number .long))
      #[two] :=
    .member (.slot #[two] cart) rfl rfl
  have elaborated : Elaborates locals members #[] _ root #[two, two] :=
    .binary (.binary (.literal #[] two) selection rfl) (.literal #[two] two)
      rfl
  have typed : TypedProgram.ofTokens locals members 4 tokens =
      .ok ⟨root, #[two, two]⟩ :=
    TypedProgram.ofTokens_eq_ok_iff.2 ⟨_, rfl, elaborated, by decide⟩
  exact ⟨typed, TypedProgram.entries_of_ofTokens typed⟩

end Formula
