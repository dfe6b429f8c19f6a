import Formula.Proofs.Source.Parser

/-!
# The grammar of sources

What a source may say, level by level, written on the characters themselves.
The levels are those of phrases: 2 to 11 for the binary operators, 12 for the
unary ones, 13 for member selection and 14 for what stands alone.
-/

namespace Formula

/-- An expression that may stand where a level is asked for is written from one
place to another. Blanks may stand before each of its parts. -/
inductive Derives (keywords : Keywords) :
    Nat → Cursor → Expression → Cursor → Prop
  | number {start stop : Cursor} {value : Number}
      (follows : start.skipBlanks.startsNumber)
      (read : start.skipBlanks.number false = .ok (value, stop)) :
      Derives keywords 14 start (.operand (.constant (.number value))) stop
  | negativeNumber {start middle stop : Cursor} {value : Number}
      (sign : start.skipBlanks.Munches UnaryOperator.symbol .negate middle)
      (follows : middle.startsNumber)
      (read : middle.number true = .ok (value, stop)) :
      Derives keywords 14 start (.operand (.constant (.number value))) stop
  | string {start stop : Cursor} {text : String}
      (read : start.skipBlanks.string = .ok (text, stop)) :
      Derives keywords 14 start (.operand (.constant (.string text))) stop
  | word {start stop : Cursor} {name : String}
      (read : start.skipBlanks.identifier? = some (name, stop)) :
      Derives keywords 14 start (.operand (keywords.operand name)) stop
  | group {start inside middle stop : Cursor} {tree : Expression}
      (opened : start.skipBlanks.eat? '(' = some inside)
      (content : Derives keywords 2 inside tree middle)
      (closed : middle.skipBlanks.eat? ')' = some stop) :
      Derives keywords 14 start tree stop
  | member {start middle after stop : Cursor} {owner : Expression}
      {name : String} (ownerWritten : Derives keywords 13 start owner middle)
      (point : middle.skipBlanks.Munches BinaryOperator.symbol .member after)
      (read : after.skipBlanks.identifier? = some (name, stop)) :
      Derives keywords 13 start
        (.binary .member owner (.operand (.reference name))) stop
  | unary {start middle stop : Cursor} {operator : UnaryOperator}
      {inner : Expression}
      (sign : start.skipBlanks.Munches UnaryOperator.symbol operator middle)
      (notLiteral : operator = .negate → ¬ middle.startsNumber)
      (innerWritten : Derives keywords 12 middle inner stop) :
      Derives keywords 12 start (.unary operator inner) stop
  | binary {start middle after stop : Cursor} {operator : BinaryOperator}
      {left right : Expression} (notMember : operator ≠ .member)
      (leftWritten : Derives keywords operator.precedence start left middle)
      (symbol :
        middle.skipBlanks.Munches BinaryOperator.symbol operator after)
      (rightWritten :
        Derives keywords (operator.precedence + 1) after right stop) :
      Derives keywords operator.precedence start
        (.binary operator left right) stop
  | loosen {level : Nat} {start stop : Cursor} {tree : Expression}
      (written : Derives keywords (level + 1) start tree stop) :
      Derives keywords level start tree stop

/-- A source spells an expression and nothing after it. -/
def Spells (keywords : Keywords) (source : String) (tree : Expression) : Prop :=
  ∃ stop, Derives keywords 2 (Cursor.start source) tree stop ∧
    stop.skipBlanks.atEnd

variable {keywords : Keywords}

theorem Lexeme.next_binary {operator : BinaryOperator}
    (notMember : operator ≠ .member) :
    (Lexeme.binary operator).next = .operand := by
  cases operator with
  | member =>
      exact absurd rfl notMember
  | _ =>
      rfl

theorem Derives.loosen_of_le {level looser : Nat} {start stop : Cursor}
    {tree : Expression} (derives : Derives keywords level start tree stop)
    (isLooser : looser ≤ level) : Derives keywords looser start tree stop :=
  Levels.of_le (fun level => Derives keywords level start tree stop)
    (fun _ tighter => .loosen tighter) isLooser derives

/-! ## Derivations and phrases -/

/-- What is derived from the characters is a phrase of their lexemes. -/
theorem Derives.exists_phrase {level : Nat} {start stop : Cursor}
    {tree : Expression} (derives : Derives keywords level start tree stop) :
    ∃ lexemes, Phrase keywords level lexemes tree ∧
      Lexes .operand start lexemes .operator stop := by
  induction derives with
  | number follows read =>
      exact ⟨_, .constant _ _, .next (.number follows read) .done⟩
  | negativeNumber sign follows read =>
      exact ⟨_, .constant _ _, .next (.negativeNumber sign follows read) .done⟩
  | string read =>
      exact ⟨_, .constant _ _, .next (.string read) .done⟩
  | word read =>
      exact ⟨_, .word _ _, .next (.word read) .done⟩
  | group opened _ closed inductionHypothesis =>
      obtain ⟨lexemes, phrase, lexes⟩ := inductionHypothesis
      exact ⟨_, .group _ _ phrase,
        .next (.opening opened) (lexes.append (.next (.closing closed) .done))⟩
  | member _ point read inductionHypothesis =>
      obtain ⟨lexemes, phrase, lexes⟩ := inductionHypothesis
      exact ⟨_, .member _ _ _ phrase,
        lexes.append (.next (.binary point) (.next (.memberName read) .done))⟩
  | unary sign notLiteral _ inductionHypothesis =>
      obtain ⟨lexemes, phrase, lexes⟩ := inductionHypothesis
      exact ⟨_, .unary _ _ phrase, .next (.unary sign notLiteral) lexes⟩
  | @binary start middle after stop operator left right notMember _ symbol _
      leftHypothesis rightHypothesis =>
      obtain ⟨leftLexemes, leftPhrase, leftLexes⟩ := leftHypothesis
      obtain ⟨rightLexemes, rightPhrase, rightLexes⟩ := rightHypothesis
      have next := Lexeme.next_binary notMember
      exact ⟨_, .binary _ notMember leftPhrase rightPhrase,
        leftLexes.append (.next (.binary symbol) (next ▸ rightLexes))⟩
  | loosen _ inductionHypothesis =>
      obtain ⟨lexemes, phrase, lexes⟩ := inductionHypothesis
      exact ⟨lexemes, phrase.loosen, lexes⟩

/-- A phrase whose lexemes are read one after another is derived from the
characters that they are read from. -/
theorem Phrase.derives {level : Nat} {lexemes : List PlacedLexeme}
    {tree : Expression} (phrase : Phrase keywords level lexemes tree) :
    ∀ {start stop : Cursor} {last : Expectation},
      Lexes .operand start lexemes last stop →
        last = .operator ∧ Derives keywords level start tree stop := by
  induction phrase with
  | constant offset value =>
      intro start stop last lexes
      cases lexes with
      | next reads follow =>
          cases follow
          cases reads with
          | number follows read =>
              exact ⟨rfl, .number follows read⟩
          | negativeNumber sign follows read =>
              exact ⟨rfl, .negativeNumber sign follows read⟩
          | string read =>
              exact ⟨rfl, .string read⟩
  | word offset name =>
      intro start stop last lexes
      cases lexes with
      | next reads follow =>
          cases follow
          cases reads with
          | word read =>
              exact ⟨rfl, .word read⟩
  | group opening closing _ inductionHypothesis =>
      intro start stop last lexes
      cases lexes with
      | next reads follow =>
          cases reads with
          | opening opened =>
              obtain ⟨between, middle, inside, after⟩ := Lexes.of_append follow
              obtain ⟨rfl, content⟩ := inductionHypothesis inside
              cases after with
              | next reads follow =>
                  cases follow
                  cases reads with
                  | closing closed =>
                      exact ⟨rfl, .group opened content closed⟩
  | member offset nameOffset name _ inductionHypothesis =>
      intro start stop last lexes
      obtain ⟨between, middle, before, after⟩ := Lexes.of_append lexes
      obtain ⟨rfl, owner⟩ := inductionHypothesis before
      cases after with
      | next reads follow =>
          cases reads with
          | binary point =>
              cases follow with
              | next reads follow =>
                  cases follow
                  cases reads with
                  | memberName read =>
                      exact ⟨rfl, .member owner point read⟩
  | unary offset operator _ inductionHypothesis =>
      intro start stop last lexes
      cases lexes with
      | next reads follow =>
          obtain ⟨rfl, inner⟩ := inductionHypothesis follow
          cases reads with
          | unary sign notLiteral =>
              exact ⟨rfl, .unary sign notLiteral inner⟩
  | binary offset notMember _ _ leftHypothesis rightHypothesis =>
      intro start stop last lexes
      obtain ⟨between, middle, before, after⟩ := Lexes.of_append lexes
      obtain ⟨rfl, left⟩ := leftHypothesis before
      cases after with
      | next reads follow =>
          rw [Lexeme.next_binary notMember] at follow
          obtain ⟨rfl, right⟩ := rightHypothesis follow
          cases reads with
          | binary symbol =>
              exact ⟨rfl, .binary notMember left symbol right⟩
  | loosen _ inductionHypothesis =>
      intro start stop last lexes
      obtain ⟨isOperator, derives⟩ := inductionHypothesis lexes
      exact ⟨isOperator, derives.loosen⟩

/-! ## Reading a source -/

/-- An expression is read exactly from the sources that spell it, if it is
not too high. -/
theorem Expression.ofSource_eq_ok_iff {limit : Nat} {source : String}
    {tree : Expression} :
    Expression.ofSource keywords limit source = .ok tree ↔
      Spells keywords source tree ∧ tree.height ≤ limit := by
  constructor
  · intro formed
    rw [Expression.ofSource] at formed
    cases cut : LexemeList.ofSource source with
    | mk lexemes error? =>
        rw [cut] at formed
        cases error? with
        | some error =>
            rw [Expression.ofLexemes] at formed
            split at formed <;> cases formed
        | none =>
            obtain ⟨stop, lexes, atEnd⟩ := LexemeList.ofSource_eq_iff.1 cut
            obtain ⟨phrase, fits⟩ :=
              (Expression.ofLexemes_eq_ok_iff lexes.leads).1 formed
            exact ⟨⟨stop, (phrase.derives lexes).2, atEnd⟩, fits⟩
  · rintro ⟨⟨stop, derives, atEnd⟩, fits⟩
    obtain ⟨lexemes, phrase, lexes⟩ := derives.exists_phrase
    rw [Expression.ofSource, LexemeList.ofSource_eq_iff.2 ⟨stop, lexes, atEnd⟩]
    exact (Expression.ofLexemes_eq_ok_iff lexes.leads).2 ⟨phrase, fits⟩

/-- A source spells one expression at most. -/
theorem Spells.unique {source : String} {tree other : Expression}
    (spells : Spells keywords source tree)
    (spellsOther : Spells keywords source other) : tree = other := by
  let limit := max tree.height other.height
  have formed : Expression.ofSource keywords limit source = .ok tree :=
    Expression.ofSource_eq_ok_iff.2 ⟨spells, Nat.le_max_left _ _⟩
  have formedOther : Expression.ofSource keywords limit source = .ok other :=
    Expression.ofSource_eq_ok_iff.2 ⟨spellsOther, Nat.le_max_right _ _⟩
  exact Except.ok.inj (formed.symm.trans formedOther)

/-- What is read from a source are the tokens of its expression. -/
theorem Language.parse_eq_ok_iff {language : Language} {source : String}
    {tokens : List Token} :
    language.parse source = .ok tokens ↔
      ∃ tree, Expression.ofSource language.keywords language.limit source =
          .ok tree ∧ tree.tokens = tokens := by
  rw [Language.parse_eq_map]
  cases Expression.ofSource language.keywords language.limit source with
  | error error =>
      simp [Except.map]
  | ok tree =>
      simp [Except.map]

end Formula
