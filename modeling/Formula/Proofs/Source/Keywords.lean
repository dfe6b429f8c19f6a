import Formula.Proofs.Source.Faults

/-!
# Keywords as substitution

Keywords do not take part in reading a source. What is read with keywords is
what is read without any, with its references replaced afterwards. Grouping sees
the height of an operand and never its content, so two readings that differ in
their keywords stay in step at every lexeme.
-/

namespace Formula

/-! ## Replacing references -/

/-- What the keywords make of an operand of a tree. -/
def Keywords.replaceOperand (keywords : Keywords) : Operand → Operand
  | .constant value => .constant value
  | .reference name => keywords.operand name

/-- A tree with its references replaced by what the keywords say. The name of a
member is no reference to replace. -/
def Expression.replaceWords (keywords : Keywords) : Expression → Expression
  | .operand atom => .operand (keywords.replaceOperand atom)
  | .unary operator inner => .unary operator (inner.replaceWords keywords)
  | .binary operator left right =>
      .binary operator (left.replaceWords keywords)
        (if operator = .member then right else right.replaceWords keywords)

/-- What an operand or operator of a list of tokens stands for: a value, or the
name of the member that is selected. -/
inductive TokenRole
  | value
  | memberName

def Token.operandRoles : Token → List TokenRole
  | .operand _ => []
  | .unary _ => [.value]
  | .binary operator =>
      [.value, if operator = .member then .memberName else .value]

namespace Keywords

/-- A token with its reference replaced, unless it names a member. -/
def replaceToken (keywords : Keywords) : TokenRole → Token → Token
  | .value, .operand atom => .operand (keywords.replaceOperand atom)
  | _, token => token

/-- Replaces the references of tokens that fill some roles in order. -/
def replaceFrom (keywords : Keywords) :
    List TokenRole → List Token → List Token
  | role :: roles, token :: tokens =>
      keywords.replaceToken role token ::
        keywords.replaceFrom (token.operandRoles ++ roles) tokens
  | _, tokens => tokens

/-- The tokens of an expression with every reference replaced that is not the
right operand of a member selection. -/
def replaceTokens (keywords : Keywords) (tokens : List Token) : List Token :=
  keywords.replaceFrom [.value] tokens

@[simp]
theorem replaceFrom_nil (keywords : Keywords) (tokens : List Token) :
    keywords.replaceFrom [] tokens = tokens := by
  cases tokens with
  | nil =>
      rfl
  | cons token rest =>
      rfl

end Keywords

namespace Expression

variable {keywords : Keywords}

theorem replaceWords_member (owner name : Expression) :
    (binary .member owner name).replaceWords keywords =
      .binary .member (owner.replaceWords keywords) name := by
  rw [replaceWords, if_pos rfl]

theorem replaceWords_binary {operator : BinaryOperator}
    (notMember : operator ≠ .member) (left right : Expression) :
    (binary operator left right).replaceWords keywords =
      .binary operator (left.replaceWords keywords)
        (right.replaceWords keywords) := by
  rw [replaceWords, if_neg notMember]

/-- The tokens of a tree fill the role of one value, whatever roles are left for
the tokens after it. -/
theorem replaceFrom_tokens (keywords : Keywords) {tree : Expression}
    (named : tree.NamesMembers) :
    ∀ (roles : List TokenRole) (rest : List Token),
      keywords.replaceFrom (.value :: roles) (tree.tokens ++ rest) =
        (tree.replaceWords keywords).tokens ++
          keywords.replaceFrom roles rest := by
  -- Roles and rest vary: the tokens of a left operand stand before those of
  -- the right one, whose role is still to be filled.
  induction tree with
  | operand atom =>
      intro roles rest
      simp only [tokens, replaceWords, List.cons_append, List.nil_append,
        Keywords.replaceFrom, Keywords.replaceToken, Token.operandRoles]
  | unary operator inner inductionHypothesis =>
      intro roles rest
      have replaced := inductionHypothesis named roles rest
      simp only [tokens, replaceWords, List.cons_append, List.nil_append,
        Keywords.replaceFrom, Keywords.replaceToken, Token.operandRoles,
        replaced]
  | binary operator left right leftHypothesis rightHypothesis =>
      intro roles rest
      obtain ⟨leftNamed, rightNamed, selects⟩ := named
      by_cases isMember : operator = .member
      · subst isMember
        obtain ⟨name, rfl⟩ := selects rfl
        have owner := leftHypothesis leftNamed (.memberName :: roles)
          (.operand (.reference name) :: rest)
        simp only [tokens, replaceWords_member, List.cons_append,
          List.nil_append, List.append_assoc, Keywords.replaceFrom,
          Keywords.replaceToken, Token.operandRoles, if_pos, owner]
      · have first := leftHypothesis leftNamed (.value :: roles)
          (right.tokens ++ rest)
        have second := rightHypothesis rightNamed roles rest
        simp only [tokens, replaceWords_binary isMember, List.cons_append,
          List.nil_append, List.append_assoc, Keywords.replaceFrom,
          Keywords.replaceToken, Token.operandRoles, if_neg isMember, first,
          second]

theorem replaceTokens_tokens (keywords : Keywords) {tree : Expression}
    (named : tree.NamesMembers) :
    keywords.replaceTokens tree.tokens =
      (tree.replaceWords keywords).tokens := by
  have replaced := replaceFrom_tokens keywords named [] []
  rw [List.append_nil, Keywords.replaceFrom_nil, List.append_nil] at replaced
  exact replaced

end Expression

/-! ## Readings in step -/

/-- A measured tree with its references replaced has the same height. -/
def MeasuredExpression.replaceWords (keywords : Keywords)
    (operand : MeasuredExpression) : MeasuredExpression :=
  ⟨operand.expression.replaceWords keywords, operand.height⟩

@[simp]
theorem MeasuredExpression.height_replaceWords (keywords : Keywords)
    (operand : MeasuredExpression) :
    (operand.replaceWords keywords).height = operand.height := by
  rfl

namespace Grouping

variable {keywords : Keywords} {limit : Nat}

/-- The state of grouping with the references of its operands replaced. -/
def replaceWords (keywords : Keywords) (state : Grouping) : Grouping :=
  ⟨state.operands.map (·.replaceWords keywords), state.pending⟩

theorem pushOperand_replaceWords (keywords : Keywords) (limit offset : Nat)
    (operands : List MeasuredExpression) (operand : MeasuredExpression) :
    pushOperand limit offset (operands.map (·.replaceWords keywords))
        (operand.replaceWords keywords) =
      (pushOperand limit offset operands operand).map
        (List.map (·.replaceWords keywords)) := by
  unfold pushOperand
  rw [MeasuredExpression.height_replaceWords]
  by_cases tooHigh : limit < operand.height
  · rw [if_pos tooHigh, if_pos tooHigh]
    rfl
  · rw [if_neg tooHigh, if_neg tooHigh]
    rfl

def SelectsNothing (pending : List Pending) : Prop :=
  ∀ top ∈ pending, ∀ offset, top ≠ .binary .member offset

/-- A selection is completed by the name that follows its point, so none waits
where an operand is missing. -/
theorem Waiting.selectsNothing {read : List PlacedLexeme}
    {operands : List MeasuredExpression} {pending : List Pending}
    (waits : Waiting keywords limit read operands pending) :
    SelectsNothing pending := by
  induction waits with
  | nil =>
      intro top isWaiting
      cases isWaiting
  | group opening before inductionHypothesis =>
      have noSelection : ∀ offset,
          Pending.group opening ≠ .binary .member offset := fun offset =>
        nofun
      exact List.forall_mem_cons.2 ⟨noSelection, inductionHypothesis⟩
  | unary start operator before inductionHypothesis =>
      have noSelection : ∀ offset,
          Pending.unary operator start ≠ .binary .member offset :=
        fun offset => nofun
      exact List.forall_mem_cons.2 ⟨noSelection, inductionHypothesis⟩
  | @binary start operator notMember _ _ _ _ _ before looser phrase
      inductionHypothesis =>
      have noSelection : ∀ offset,
          Pending.binary operator start ≠ .binary .member offset := by
        intro offset isSelection
        cases isSelection
        exact notMember rfl
      exact List.forall_mem_cons.2 ⟨noSelection, inductionHypothesis⟩

theorem Standing.selectsNothing {level : Nat} {read : List PlacedLexeme}
    {operands : List MeasuredExpression} {pending : List Pending}
    (stands : Standing keywords limit level read operands pending) :
    SelectsNothing pending := by
  obtain ⟨_, _, _, _, _, _, waits, _⟩ := stands
  exact waits.selectsNothing

theorem applyPending_replaceWords (keywords : Keywords) (limit : Nat)
    {top : Pending} (notMember : ∀ offset, top ≠ .binary .member offset)
    (operands : List MeasuredExpression) :
    applyPending limit (operands.map (·.replaceWords keywords)) top =
      (applyPending limit operands top).map
        (List.map (·.replaceWords keywords)) := by
  cases top with
  | group offset =>
      rfl
  | unary operator offset =>
      cases operands with
      | nil =>
          rfl
      | cons operand rest =>
          exact pushOperand_replaceWords keywords limit offset rest
            ⟨.unary operator operand.expression, operand.height + 1⟩
  | binary operator offset =>
      cases operands with
      | nil =>
          rfl
      | cons right operands =>
          cases operands with
          | nil =>
              rfl
          | cons left rest =>
              have isOther : operator ≠ .member := by
                rintro rfl
                exact notMember offset rfl
              have joined := pushOperand_replaceWords keywords limit offset
                rest
                ⟨.binary operator left.expression right.expression,
                  max left.height right.height + 1⟩
              rw [MeasuredExpression.replaceWords,
                Expression.replaceWords_binary isOther] at joined
              exact joined

/-- A selection takes its owner with the references replaced, and its name as
it is. -/
theorem applyPending_member_replaceWords (keywords : Keywords) (limit : Nat)
    (offset : Nat) (name owner : MeasuredExpression)
    (rest : List MeasuredExpression) :
    applyPending limit
        (name :: owner.replaceWords keywords ::
          rest.map (·.replaceWords keywords)) (.binary .member offset) =
      (applyPending limit (name :: owner :: rest)
        (.binary .member offset)).map (List.map (·.replaceWords keywords)) :=
  pushOperand_replaceWords keywords limit offset rest
    ⟨.binary .member owner.expression name.expression,
      max owner.height name.height + 1⟩

theorem reduceWhile_replaceWords (keywords : Keywords) (limit : Nat)
    (accepts : Pending → Bool) {pending : List Pending}
    (selectsNothing : SelectsNothing pending) :
    ∀ operands : List MeasuredExpression,
      reduceWhile limit accepts (operands.map (·.replaceWords keywords))
          pending =
        (reduceWhile limit accepts operands pending).map
          (replaceWords keywords) := by
  induction pending with
  | nil =>
      intro operands
      rfl
  | cons top rest inductionHypothesis =>
      intro operands
      obtain ⟨notMember, below⟩ := List.forall_mem_cons.1 selectsNothing
      rw [reduceWhile, reduceWhile]
      by_cases accepted : accepts top
      · rw [if_pos accepted, if_pos accepted,
          applyPending_replaceWords keywords limit notMember]
        cases applied : applyPending limit operands top with
        | error error =>
            rfl
        | ok next =>
            exact inductionHypothesis below next
      · rw [if_neg accepted, if_neg accepted]
        rfl

theorem addOperand_replaceWords (keywords : Keywords) (limit : Nat)
    (state : Grouping) (offset : Nat) (operand : Operand) :
    addOperand limit (state.replaceWords keywords) offset
        (keywords.replaceOperand operand) =
      (addOperand limit state offset operand).map (replaceWords keywords) := by
  have pushed : pushOperand limit offset
      (state.replaceWords keywords).operands
      ⟨.operand (keywords.replaceOperand operand), 1⟩ = _ :=
    pushOperand_replaceWords keywords limit offset state.operands
      ⟨.operand operand, 1⟩
  rw [addOperand, addOperand, pushed]
  cases pushOperand limit offset state.operands ⟨.operand operand, 1⟩ with
  | error error =>
      rfl
  | ok operands =>
      rfl

theorem addBinary_replaceWords (keywords : Keywords) (limit : Nat)
    {state : Grouping} (selectsNothing : SelectsNothing state.pending)
    (offset : Nat) (operator : BinaryOperator) :
    addBinary limit (state.replaceWords keywords) offset operator =
      (addBinary limit state offset operator).map (replaceWords keywords) := by
  have reduced := reduceWhile_replaceWords keywords limit
    (Pending.bindsBefore operator) selectsNothing state.operands
  rw [addBinary, addBinary, replaceWords, reduced]
  cases reduceWhile limit (Pending.bindsBefore operator) state.operands
      state.pending with
  | error error =>
      rfl
  | ok next =>
      rfl

theorem closeGroup_replaceWords (keywords : Keywords) (limit : Nat)
    {state : Grouping} (selectsNothing : SelectsNothing state.pending)
    (offset : Nat) :
    closeGroup limit (state.replaceWords keywords) offset =
      (closeGroup limit state offset).map (replaceWords keywords) := by
  have reduced := reduceWhile_replaceWords keywords limit Pending.isOperator
    selectsNothing state.operands
  rw [closeGroup, closeGroup, replaceWords, reduced]
  cases reduceWhile limit Pending.isOperator state.operands state.pending with
  | error error =>
      rfl
  | ok next =>
      obtain ⟨operands, _ | ⟨opening, rest⟩⟩ := next
      · rfl
      · rfl

/-- The name of a member completes the selection that waits last, with the same
name in both readings. -/
theorem addMemberName_replaceWords {read : List PlacedLexeme}
    {state : Grouping}
    (holds : Holds .empty limit read state .memberName)
    (keywords : Keywords) (offset : Nat) (name : String) :
    addMemberName limit (state.replaceWords keywords) offset name =
      (addMemberName limit state offset name).map (replaceWords keywords) := by
  obtain ⟨operands, _⟩ := state
  obtain ⟨before, pointOffset, pending, rfl, rfl, stands⟩ := holds
  obtain ⟨_, _, rest, tree, _, rfl, _, _, fits⟩ := stands
  have nameFits : 1 ≤ limit := Nat.le_trans tree.height_pos fits
  -- The name is taken at once, so it never stands among the operands that are
  -- replaced.
  have selected := applyPending_member_replaceWords keywords limit pointOffset
    (Expression.operand (.reference name)).measured tree.measured rest
  rw [addMemberName, addMemberName, addOperand_eq_ok nameFits,
    addOperand_eq_ok nameFits]
  simp only [replaceWords, List.map_cons, selected]
  cases applyPending limit
      ((Expression.operand (.reference name)).measured ::
        tree.measured :: rest) (.binary .member pointOffset) with
  | error error =>
      rfl
  | ok operands =>
      rfl

/-- A lexeme that is allowed keeps the readings in step. -/
theorem Holds.add_replaceWords {expectation : Expectation}
    {read : List PlacedLexeme} {state : Grouping} {placed : PlacedLexeme}
    (holds : Holds .empty limit read state expectation)
    (allowed : expectation.Allows placed.lexeme) (keywords : Keywords) :
    Grouping.add keywords limit (state.replaceWords keywords) placed =
      (Grouping.add .empty limit state placed).map
        (replaceWords keywords) := by
  obtain ⟨offset, lexeme⟩ := placed
  cases expectation with
  | operand =>
      cases lexeme with
      | constant value =>
          exact addOperand_replaceWords keywords limit state offset
            (.constant value)
      | word name =>
          exact addOperand_replaceWords keywords limit state offset
            (.reference name)
      | unary | opening =>
          rfl
      | memberName | binary | closing =>
          cases allowed
  | operator =>
      have stands : Standing .empty limit 13 read state.operands
        state.pending := holds
      cases lexeme with
      | binary operator =>
          exact addBinary_replaceWords keywords limit stands.selectsNothing
            offset operator
      | closing =>
          exact closeGroup_replaceWords keywords limit stands.selectsNothing
            offset
      | constant | word | memberName | unary | opening =>
          cases allowed
  | memberName =>
      cases lexeme with
      | memberName name =>
          exact addMemberName_replaceWords holds keywords offset name
      | constant | word | unary | binary | opening | closing =>
          cases allowed

theorem Holds.addAll_replaceWords {last : Expectation} (keywords : Keywords)
    {lexemes : List PlacedLexeme} :
    ∀ {expectation : Expectation} {read : List PlacedLexeme}
      {state : Grouping}, Holds .empty limit read state expectation →
        expectation.Leads lexemes last →
          Grouping.addAll keywords limit (state.replaceWords keywords)
              lexemes =
            (Grouping.addAll .empty limit state lexemes).map
              (replaceWords keywords) := by
  induction lexemes with
  | nil =>
      intro expectation read state holds leads
      rfl
  | cons placed rest inductionHypothesis =>
      intro expectation read state holds leads
      obtain ⟨allowed, leadsOn⟩ := leads
      rw [Grouping.addAll, Grouping.addAll, holds.add_replaceWords allowed]
      cases step : Grouping.add .empty limit state placed with
      | error error =>
          rfl
      | ok next =>
          exact inductionHypothesis (holds.add allowed step) leadsOn

theorem finish_replaceWords (keywords : Keywords) (limit : Nat)
    {state : Grouping} (selectsNothing : SelectsNothing state.pending) :
    finish limit (state.replaceWords keywords) =
      (finish limit state).map (Expression.replaceWords keywords) := by
  have reduced := reduceWhile_replaceWords keywords limit Pending.isOperator
    selectsNothing state.operands
  rw [finish, finish, replaceWords, reduced]
  cases reduceWhile limit Pending.isOperator state.operands state.pending with
  | error error =>
      rfl
  | ok next =>
      obtain ⟨_ | ⟨root, operands⟩, _ | ⟨_ | _ | _, pending⟩⟩ := next <;> rfl

end Grouping

/-! ## Reading with keywords -/

theorem Expression.ofSource_eq_map_replaceWords (keywords : Keywords)
    (limit : Nat) (source : String) :
    Expression.ofSource keywords limit source =
      (Expression.ofSource .empty limit source).map
        (Expression.replaceWords keywords) := by
  obtain ⟨last, stop, lexes, ended⟩ := LexemeList.exists_lexes_ofSource source
  have started : Grouping.Holds .empty limit [] .initial .operand := .nil
  have inStep :
      Grouping.initial.addAll keywords limit
          (LexemeList.ofSource source).lexemes =
        (Grouping.initial.addAll .empty limit
          (LexemeList.ofSource source).lexemes).map
            (Grouping.replaceWords keywords) :=
    started.addAll_replaceWords keywords lexes.leads
  rw [Expression.ofSource, Expression.ofSource, Expression.ofLexemes,
    Expression.ofLexemes, inStep]
  cases added : Grouping.initial.addAll .empty limit
      (LexemeList.ofSource source).lexemes with
  | error error =>
      rfl
  | ok state =>
      cases lexed : (LexemeList.ofSource source).error? with
      | some error =>
          rfl
      | none =>
          obtain ⟨rfl, _⟩ := ended lexed
          have stands : Grouping.Standing .empty limit 13 _ state.operands
            state.pending := started.addAll lexes.leads added
          exact Grouping.finish_replaceWords keywords limit
            stands.selectsNothing

theorem Language.parse_eq_map_replaceTokens (keywords : Keywords)
    (limit : Nat) (source : String) :
    Language.parse ⟨keywords, limit⟩ source =
      (Language.parse ⟨.empty, limit⟩ source).map keywords.replaceTokens := by
  have inStep := Expression.ofSource_eq_map_replaceWords keywords limit source
  simp only [parse_eq_map, inStep]
  cases formed : Expression.ofSource .empty limit source with
  | error error =>
      rfl
  | ok tree =>
      have replaced := Expression.replaceTokens_tokens keywords
        (Expression.namesMembers_of_ofSource formed)
      simp only [Except.map, replaced]

/-- Keywords are substitution. Reading a source with keywords is reading it
without any and replacing every reference that is not the name of a member by
what the keywords say, once. It fails on the same sources with the same errors.
On the tree that is listed, references are replaced wherever they stand for a
value. -/
theorem Language.parse_with_keywords (keywords : Keywords) (limit : Nat)
    (source : String) :
    Language.parse ⟨keywords, limit⟩ source =
        (Language.parse ⟨.empty, limit⟩ source).map keywords.replaceTokens ∧
      ∀ tokens, Language.parse ⟨.empty, limit⟩ source = .ok tokens →
        ∃ tree : Expression, tree.tokens = tokens ∧ tree.NamesMembers ∧
          Language.parse ⟨keywords, limit⟩ source =
            .ok (tree.replaceWords keywords).tokens := by
  have substituted :=
    Language.parse_eq_map_replaceTokens keywords limit source
  refine ⟨substituted, fun tokens parsed => ?_⟩
  obtain ⟨tree, rfl, named, _⟩ := Language.exists_tree_of_parse parsed
  have replaced : keywords.replaceTokens tree.tokens =
      (tree.replaceWords keywords).tokens :=
    Expression.replaceTokens_tokens keywords named
  rw [substituted, parsed, Except.map, replaced]
  exact ⟨tree, rfl, named, rfl⟩

/-- The keyword `me` stands for a reference by the name `null`, which is not
replaced again, and the member `null` keeps its name. -/
theorem Language.parse_with_alias_of_keyword :
    Language.parse
        ⟨Keywords.standard.insert "me" (.reference "null"), 3⟩
        "me.null + null" =
      .ok [.binary (.arithmetic .add), .binary .member,
        .operand (.reference "null"), .operand (.reference "null"),
        .operand (.constant .null)] := by
  have plain : Language.parse ⟨.empty, 3⟩ "me.null + null" =
      .ok [.binary (.arithmetic .add), .binary .member,
        .operand (.reference "me"), .operand (.reference "null"),
        .operand (.reference "null")] := by
    decide +kernel
  rw [(Language.parse_with_keywords _ 3 "me.null + null").1, plain]
  rfl

end Formula
