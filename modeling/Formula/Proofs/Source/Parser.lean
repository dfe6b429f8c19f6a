import Formula.Language
import Formula.Proofs.Source.NodeTable

/-!
# Reading with a table of nodes

Reading with a table of nodes goes the same way as grouping into trees: after
every lexeme the operands of the table are the roots of the trees, and both fail
with the same error. The owner of a member is claimed before its name is read,
so an operand has to be there when a selection begins.
-/

namespace Formula

/-- Two results are the same error, or values that stand in a relation. -/
inductive Agree {α β : Type} (relation : α → β → Prop) :
    Except Error α → Except Error β → Prop
  | ok {value : α} {other : β} (related : relation value other) :
      Agree relation (.ok value) (.ok other)
  | error (error : Error) : Agree relation (.error error) (.error error)

theorem Agree.ite {α β : Type} {relation : α → β → Prop} {value : α}
    {other : β} (fails : Prop) [Decidable fails] (error : Error)
    (related : relation value other) :
    Agree relation (if fails then .error error else .ok value)
      (if fails then .error error else .ok other) := by
  by_cases isFailure : fails
  · rw [if_pos isFailure, if_pos isFailure]
    exact .error error
  · rw [if_neg isFailure, if_neg isFailure]
    exact .ok related

theorem Agree.cases {α β : Type} {relation : α → β → Prop}
    {result : Except Error α} {alike : Except Error β}
    (agree : Agree relation result alike) :
    (∃ value other, result = .ok value ∧ alike = .ok other ∧
        relation value other) ∨
      ∃ error, result = .error error ∧ alike = .error error := by
  cases agree with
  | ok related =>
      exact .inl ⟨_, _, rfl, rfl, related⟩
  | error error =>
      exact .inr ⟨error, rfl, rfl⟩

namespace NodeTable

/-! ## Operators -/

/-- The operands of a table are the roots of the trees on a stack. -/
def StandsFor (table : NodeTable) (operands : List MeasuredExpression) : Prop :=
  ∃ trees, operands = trees.map Expression.measured ∧ table.Represents trees

/-- Where there is a tree, there is an operand to claim. -/
theorem StandsFor.exists_operands_eq {table : NodeTable}
    {operand : MeasuredExpression} {operands : List MeasuredExpression}
    (stands : table.StandsFor (operand :: operands)) :
    ∃ index rest, table.operands = index :: rest := by
  obtain ⟨nodes, indices⟩ := table
  obtain ⟨trees, isTrees, places, lists, _⟩ := stands
  cases lists with
  | nil =>
      cases isTrees
  | cons =>
      exact ⟨_, _, rfl⟩

theorem push_eq {table : NodeTable} {left? right? : Option Nat}
    {heights : List Nat} (limit offset : Nat) (token : Token)
    (found : heights? table.nodes (left?.toList ++ right?.toList) =
      some heights) :
    table.push limit offset token left? right? =
      let height := 1 + heights.max?.getD 0
      if limit < height then .error (.written offset (.nestedTooDeep limit))
      else
        .ok ⟨table.nodes.push ⟨some token, left?, right?, height⟩,
          table.nodes.size :: table.operands⟩ := by
  rw [push, found]

variable (limit : Nat) {nodes : Array Node} {rest : List Nat}
  {trees : List Expression}

/-- An operand is put behind what the table keeps, whether or not an owner of a
member is claimed between. -/
theorem agree_push_operand (kept : List Nat) {held : List Nat}
    {operands : List MeasuredExpression}
    (stands : StandsFor ⟨nodes, held⟩ operands) (offset : Nat)
    (atom : Operand) :
    Agree
      (fun table operands => ∃ later index,
        table = ⟨later, index :: kept⟩ ∧
          StandsFor ⟨later, index :: held⟩ operands)
      (push limit offset ⟨nodes, kept⟩ (.operand atom) none none)
      (Grouping.pushOperand limit offset operands ⟨.operand atom, 1⟩) := by
  obtain ⟨trees, rfl, represents⟩ := stands
  have found : heights? nodes [] = some [] := rfl
  rw [push_eq limit offset _ found]
  exact .ite _ _ ⟨_, _, rfl, .operand atom :: trees, rfl,
    represents.push_operand atom⟩

theorem agree_push_unary {inner : Nat} {tree : Expression}
    (represents : Represents ⟨nodes, inner :: rest⟩ (tree :: trees))
    (offset : Nat) (operator : UnaryOperator) :
    Agree StandsFor
      (push limit offset ⟨nodes, rest⟩ (.unary operator) (some inner) none)
      (Grouping.pushOperand limit offset (trees.map Expression.measured)
        (Expression.unary operator tree).measured) := by
  have pushed := represents.push_unary operator
  obtain ⟨places, lists, _⟩ := represents
  cases lists with
  | cons first _ =>
      have found : heights? nodes [inner] = some [tree.height] := by
        simp [heights?, first.height_eq]
      have isHeight : 1 + [tree.height].max?.getD 0 =
          (Expression.unary operator tree).height :=
        Nat.add_comm _ _
      rw [push_eq limit offset _ found, isHeight]
      exact .ite _ _ ⟨_, rfl, pushed⟩

theorem agree_push_binary {left right : Nat} {leftTree rightTree : Expression}
    (represents : Represents ⟨nodes, right :: left :: rest⟩
      (rightTree :: leftTree :: trees))
    (offset : Nat) (operator : BinaryOperator) :
    Agree StandsFor
      (push limit offset ⟨nodes, rest⟩ (.binary operator) (some left)
        (some right))
      (Grouping.pushOperand limit offset (trees.map Expression.measured)
        (Expression.binary operator leftTree rightTree).measured) := by
  have pushed := represents.push_binary operator
  obtain ⟨places, lists, _⟩ := represents
  cases lists with
  | cons rightLists lists =>
      cases lists with
      | cons leftLists _ =>
          have found : heights? nodes [left, right] =
              some [leftTree.height, rightTree.height] := by
            simp [heights?, leftLists.height_eq, rightLists.height_eq]
          have isHeight : 1 + [leftTree.height, rightTree.height].max?.getD 0 =
              (Expression.binary operator leftTree rightTree).height :=
            Nat.add_comm _ _
          rw [push_eq limit offset _ found, isHeight]
          exact .ite _ _ ⟨_, rfl, pushed⟩

/-- A waiting operator claims as many operands as are there for it. -/
theorem agree_reduce {table : NodeTable} {operands : List MeasuredExpression}
    (stands : table.StandsFor operands) (top : Pending) :
    Agree StandsFor (table.reduce limit top)
      (Grouping.applyPending limit operands top) := by
  obtain ⟨nodes, indices⟩ := table
  obtain ⟨trees, rfl, represents⟩ := stands
  have isSame := represents
  obtain ⟨places, lists, _⟩ := isSame
  cases top with
  | unary operator offset =>
      cases lists with
      | nil =>
          exact .error _
      | cons =>
          exact agree_push_unary limit represents offset operator
  | binary operator offset =>
      cases lists with
      | nil =>
          exact .error _
      | cons _ lists =>
          cases lists with
          | nil =>
              exact .error _
          | cons =>
              exact agree_push_binary limit represents offset operator
  | group offset =>
      exact .error _

/-- The operands and what is left waiting are those of a state of grouping. -/
def IsState (result : NodeTable × List Pending) (state : Grouping) : Prop :=
  result.1.StandsFor state.operands ∧ result.2 = state.pending

theorem agree_reduceWhile (accepts : Pending → Bool) (pending : List Pending)
    {table : NodeTable} {operands : List MeasuredExpression}
    (stands : table.StandsFor operands) :
    Agree IsState (table.reduceWhile limit accepts pending)
      (Grouping.reduceWhile limit accepts operands pending) := by
  induction pending generalizing table operands with
  | nil =>
      exact .ok ⟨stands, rfl⟩
  | cons top rest inductionHypothesis =>
      rw [reduceWhile, Grouping.reduceWhile]
      by_cases accepted : accepts top
      · rw [if_pos accepted, if_pos accepted]
        rcases (agree_reduce limit stands top).cases with
          ⟨table, operands, reduced, applied, related⟩ |
          ⟨error, failed, alsoFailed⟩
        · rw [reduced, applied]
          exact inductionHypothesis related
        · rw [failed, alsoFailed]
          exact .error error
      · rw [if_neg accepted, if_neg accepted]
        exact .ok ⟨stands, rfl⟩

end NodeTable

/-! ## Lexemes -/

/-- A parser stands where grouping stands, where something is expected: it has
claimed the owner if the name of a member is. -/
def Parser.StandsFor (parser : Parser) (state : Grouping) :
    Expectation → Prop
  | .memberName =>
      ∃ selection, parser.selection? = some selection ∧
        NodeTable.StandsFor
            ⟨parser.table.nodes, selection.owner :: parser.table.operands⟩
            state.operands ∧
          .binary .member selection.offset :: parser.pending = state.pending
  | .operand | .operator =>
      parser.selection? = none ∧
        parser.table.StandsFor state.operands ∧ parser.pending = state.pending

namespace Parser

open Grouping (Holds)

variable {keywords : Keywords} {limit : Nat} {read : List PlacedLexeme}
  {parser : Parser} {state : Grouping} {offset : Nat}

theorem agree_addOperand (stands : parser.StandsFor state .operand)
    (atom : Operand) :
    Agree (fun parser state => parser.StandsFor state .operator)
      (parser.addOperand limit offset atom)
      (state.addOperand limit offset atom) := by
  obtain ⟨⟨nodes, kept⟩, pending, selection?⟩ := parser
  obtain ⟨unselected, standsFor, isPending⟩ := stands
  rw [addOperand, Grouping.addOperand]
  rcases (NodeTable.agree_push_operand limit kept standsFor offset
      atom).cases with
    ⟨table, operands, pushed, isGrouped, later, index, rfl, related⟩ |
    ⟨error, failed, alsoFailed⟩
  · rw [pushed, isGrouped]
    exact .ok ⟨unselected, related, isPending⟩
  · rw [failed, alsoFailed]
    exact .error error

/-- Where an operand has been read, a selection finds its owner. -/
theorem agree_addBinary
    (holds : Holds keywords limit read state .operator)
    (stands : parser.StandsFor state .operator) (operator : BinaryOperator) :
    Agree
      (fun parser state =>
        parser.StandsFor state (Lexeme.binary operator).next)
      (parser.addBinary limit offset operator)
      (state.addBinary limit offset operator) := by
  obtain ⟨unselected, standsFor, isPending⟩ := stands
  rcases (NodeTable.agree_reduceWhile limit (Pending.bindsBefore operator)
      state.pending standsFor).cases with
    ⟨⟨table, pending⟩, ⟨operands, _⟩, reduced, isGrouped, related, rfl⟩ |
    ⟨error, failed, alsoFailed⟩
  · have added : state.addBinary limit offset operator =
        .ok ⟨operands, .binary operator offset :: pending⟩ := by
      rw [Grouping.addBinary, isGrouped]
    by_cases isMember : operator = .member
    · subst isMember
      obtain ⟨_, _, _, _, _, standing⟩ : Holds keywords limit
          (read ++ [⟨offset, .binary .member⟩]) _ .memberName :=
        Grouping.holds_of_addBinary holds rfl added
      obtain ⟨_, _, _, _, _, rfl, _⟩ := standing
      obtain ⟨nodes, _⟩ := table
      obtain ⟨owner, rest, rfl⟩ := related.exists_operands_eq
      have selected : parser.addBinary limit offset .member =
          .ok ⟨⟨nodes, rest⟩, pending, some ⟨owner, offset⟩⟩ := by
        rw [addBinary, isPending, reduced]
        rfl
      rw [selected, added]
      exact .ok ⟨⟨owner, offset⟩, rfl, related, rfl⟩
    · have waits : parser.addBinary limit offset operator =
          .ok ⟨table, .binary operator offset :: pending, none⟩ := by
        rw [addBinary, isPending, reduced]
        exact if_neg isMember
      rw [waits, added, Lexeme.next_binary_of_ne_member isMember]
      exact .ok ⟨rfl, related, rfl⟩
  · rw [addBinary, Grouping.addBinary, isPending, failed, alsoFailed]
    exact .error error

/-- A selection is completed as if its operator had waited for both sides. -/
theorem addMemberName_eq_map {nodes later : Array Node} {kept : List Nat}
    {pending : List Pending} {owner named dot : Nat} {name : String}
    (pushed : NodeTable.push limit offset ⟨nodes, kept⟩
      (.operand (.reference name)) none none = .ok ⟨later, named :: kept⟩) :
    addMemberName limit ⟨⟨nodes, kept⟩, pending, some ⟨owner, dot⟩⟩ offset
        name =
      (NodeTable.reduce limit ⟨later, named :: owner :: kept⟩
        (.binary .member dot)).map (⟨·, pending, none⟩) := by
  have claimed : NodeTable.reduce limit ⟨later, named :: owner :: kept⟩
      (.binary .member dot) =
      NodeTable.push limit dot ⟨later, kept⟩ (.binary .member) (some owner)
        (some named) := rfl
  rw [addMemberName, claimed]
  dsimp only
  rw [pushed]
  dsimp only [NodeTable.pop, bind, Except.bind]
  cases NodeTable.push limit dot ⟨later, kept⟩ (.binary .member) (some owner)
      (some named) with
  | ok table =>
      rfl
  | error error =>
      rfl

theorem agree_addMemberName
    (stands : parser.StandsFor state .memberName) (name : String) :
    Agree (fun parser state => parser.StandsFor state .operator)
      (parser.addMemberName limit offset name)
      (state.addMemberName limit offset name) := by
  obtain ⟨⟨nodes, kept⟩, pending, _⟩ := parser
  obtain ⟨grouped, _⟩ := state
  obtain ⟨⟨owner, dot⟩, rfl, standsFor, rfl⟩ := stands
  rcases (NodeTable.agree_push_operand limit kept standsFor offset
      (.reference name)).cases with
    ⟨table, operands, pushed, isGrouped, later, named, rfl, related⟩ |
    ⟨error, failed, alsoFailed⟩
  · rw [addMemberName_eq_map pushed, Grouping.addMemberName,
      Grouping.addOperand, isGrouped]
    rcases (NodeTable.agree_reduce limit related
        (.binary .member dot)).cases with
      ⟨joined, applied, isJoined, isApplied, stands⟩ |
      ⟨error, failed, alsoFailed⟩
    · rw [isJoined]
      dsimp only
      rw [isApplied]
      exact .ok ⟨rfl, stands, rfl⟩
    · rw [failed]
      dsimp only
      rw [alsoFailed]
      exact .error error
  · rw [addMemberName, Grouping.addMemberName, Grouping.addOperand, alsoFailed]
    dsimp only
    rw [failed]
    exact .error error

theorem agree_closeGroup (stands : parser.StandsFor state .operator) :
    Agree (fun parser state => parser.StandsFor state .operator)
      (parser.closeGroup limit offset) (state.closeGroup limit offset) := by
  obtain ⟨unselected, standsFor, isPending⟩ := stands
  rw [closeGroup, Grouping.closeGroup, isPending]
  rcases (NodeTable.agree_reduceWhile limit Pending.isOperator state.pending
      standsFor).cases with
    ⟨⟨table, pending⟩, ⟨operands, _⟩, reduced, isGrouped, related, rfl⟩ |
    ⟨error, failed, alsoFailed⟩
  · rw [reduced, isGrouped]
    cases pending with
    | nil =>
        exact .error _
    | cons top rest =>
        exact .ok ⟨rfl, related, rfl⟩
  · rw [failed, alsoFailed]
    exact .error error

/-- One more lexeme keeps the two in step. -/
theorem agree_add {expectation : Expectation} {placed : PlacedLexeme}
    (holds : Holds keywords limit read state expectation)
    (allowed : expectation.Allows placed.lexeme)
    (stands : parser.StandsFor state expectation) :
    Agree (fun parser state => parser.StandsFor state placed.lexeme.next)
      (parser.add keywords limit placed) (state.add keywords limit placed) := by
  obtain ⟨offset, lexeme⟩ := placed
  cases expectation with
  | operand =>
      cases lexeme with
      | constant value =>
          exact agree_addOperand stands (.constant value)
      | word name =>
          exact agree_addOperand stands (keywords.operand name)
      | unary operator | opening =>
          obtain ⟨unselected, standsFor, isPending⟩ := stands
          exact .ok ⟨unselected, standsFor, congrArg _ isPending⟩
      | memberName | binary | closing =>
          cases allowed
  | operator =>
      cases lexeme with
      | binary operator =>
          exact agree_addBinary holds stands operator
      | closing =>
          exact agree_closeGroup stands
      | constant | word | memberName | unary | opening =>
          cases allowed
  | memberName =>
      cases lexeme with
      | memberName name =>
          exact agree_addMemberName stands name
      | constant | word | unary | binary | opening | closing =>
          cases allowed

theorem agree_addAll {last : Expectation} {lexemes : List PlacedLexeme} :
    ∀ {expectation : Expectation} {read : List PlacedLexeme} {parser : Parser}
      {state : Grouping}, Holds keywords limit read state expectation →
        expectation.Leads lexemes last →
          parser.StandsFor state expectation →
            Agree (fun parser state => parser.StandsFor state last)
              (lexemes.foldlM (add keywords limit) parser)
              (state.addAll keywords limit lexemes) := by
  induction lexemes with
  | nil =>
      intro expectation read parser state holds leads stands
      obtain rfl := leads
      exact .ok stands
  | cons placed rest inductionHypothesis =>
      intro expectation read parser state holds leads stands
      obtain ⟨allowed, leadsOn⟩ := leads
      rw [List.foldlM_cons, Grouping.addAll]
      rcases (agree_add holds allowed stands).cases with
        ⟨next, middle, added, isGrouped, standsNext⟩ |
        ⟨error, failed, alsoFailed⟩
      · rw [added, isGrouped]
        exact inductionHypothesis (holds.add allowed isGrouped) leadsOn
          standsNext
      · rw [failed, alsoFailed]
        exact .error error

/-- At the end of an operand nothing is left but the root, so that every node
stands in its tree. -/
theorem agree_finish (holds : Holds keywords limit read state .operator)
    (stands : parser.StandsFor state .operator) :
    Agree (fun result tree => NodeTable.ListsOnce result.2 result.1 tree)
      (parser.finish limit) (state.finish limit) := by
  obtain ⟨unselected, standsFor, isPending⟩ := stands
  have standing : Grouping.Standing keywords limit 13 read state.operands
      state.pending := holds
  rw [finish, Grouping.finish, isPending]
  rcases (NodeTable.agree_reduceWhile limit Pending.isOperator state.pending
      standsFor).cases with
    ⟨⟨table, pending⟩, ⟨operands, _⟩, reduced, isGrouped, related, rfl⟩ |
    ⟨error, failed, alsoFailed⟩
  · obtain ⟨⟨_, _, whole⟩, stopped⟩ := standing.reduceWhile
      Pending.two_le_level_of_isOperator (by omega) isGrouped
    obtain ⟨before, lexemes, rest, root, _, rfl, waits, _⟩ := whole
    rw [reduced, isGrouped]
    cases waits with
    | nil =>
        obtain ⟨nodes, _⟩ := table
        obtain ⟨trees, isTrees, places, lists, isPerm⟩ := related
        obtain ⟨tree, rfl, isRoot⟩ := List.map_eq_singleton_iff.1 isTrees.symm
        obtain rfl : tree = root :=
          congrArg MeasuredExpression.expression isRoot
        cases lists with
        | cons first later =>
            cases later
            rw [List.append_nil] at isPerm
            exact .ok ⟨_, first, isPerm⟩
    | group offset =>
        exact .error _
    | unary | binary =>
        exact absurd rfl (stopped _ rfl)
  · rw [failed, alsoFailed]
    exact .error error

/-- A table of nodes holds the expression of a source and nothing else, or
reading fails alike. -/
theorem agree_ofSource (keywords : Keywords) (limit : Nat) (source : String) :
    Agree (fun result tree => NodeTable.ListsOnce result.2 result.1 tree)
      (ofSource keywords limit source)
      (Expression.ofSource keywords limit source) := by
  obtain ⟨last, stop, lexes, ended⟩ := LexemeList.exists_lexes_ofSource source
  have started : Holds keywords limit [] .initial .operand := .nil
  have stands : initial.StandsFor .initial .operand :=
    ⟨rfl, ⟨[], rfl, [], .nil, .nil⟩, rfl⟩
  rw [ofSource, ofLexemes, Expression.ofSource, Expression.ofLexemes]
  rcases (agree_addAll started lexes.leads stands).cases with
    ⟨parser, state, added, isGrouped, standsNow⟩ |
    ⟨error, failed, alsoFailed⟩
  · rw [added, isGrouped]
    cases complete : (LexemeList.ofSource source).error? with
    | some error =>
        exact .error error
    | none =>
        obtain ⟨rfl, _⟩ := ended complete
        exact agree_finish (started.addAll lexes.leads isGrouped) standsNow
  · rw [failed, alsoFailed]
    exact .error error

theorem exists_of_ofSource {source : String} {tree : Expression}
    (formed : Expression.ofSource keywords limit source = .ok tree) :
    ∃ root nodes, ofSource keywords limit source = .ok (root, nodes) ∧
      NodeTable.ListsOnce nodes root tree := by
  rcases (agree_ofSource keywords limit source).cases with
    ⟨⟨root, nodes⟩, other, isRead, isGrouped, lists⟩ | ⟨_, _, failed⟩
  · cases formed.symm.trans isGrouped
    exact ⟨root, nodes, isRead, lists⟩
  · cases formed.symm.trans failed

end Parser

/-- What is read from a source are the tokens of its tree. -/
theorem Language.parse_eq_map (language : Language) (source : String) :
    language.parse source =
      (Expression.ofSource language.keywords language.limit source).map
        Expression.tokens := by
  rw [parse]
  rcases (Parser.agree_ofSource language.keywords language.limit
      source).cases with
    ⟨⟨root, nodes⟩, tree, isRead, isGrouped, lists⟩ |
    ⟨error, failed, alsoFailed⟩
  · rw [isRead, isGrouped]
    exact lists.tokens_eq
  · rw [failed, alsoFailed]
    rfl

end Formula
