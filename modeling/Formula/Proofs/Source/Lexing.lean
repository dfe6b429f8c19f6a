import Formula.Proofs.Operator.Munch
import Formula.Proofs.Source.Grouping

/-!
# Lexemes in their places

What each lexeme is read from, where it is expected, and the lexemes of a
source as a chain of such readings.
-/

namespace Formula

namespace Cursor

/-! ## First characters -/

theorem eat?_eq_some_iff {cursor next : Cursor} {char : Char} :
    cursor.eat? char = some next ↔
      cursor.peek? = some char ∧ next = cursor.skip := by
  unfold eat?
  by_cases follows : cursor.peek? = some char
  · rw [if_pos follows, Option.some.injEq]
    constructor
    · rintro rfl
      exact ⟨follows, rfl⟩
    · rintro ⟨_, rfl⟩
      rfl
  · rw [if_neg follows]
    constructor
    · intro absent
      cases absent
    · rintro ⟨found, _⟩
      exact absurd found follows

theorem not_startsNumber {cursor : Cursor} {char : Char}
    (follows : cursor.peek? = some char) (notDigit : isDigit char = false)
    (notPoint : char ≠ '.') : ¬ cursor.startsNumber := by
  intro starts
  obtain ⟨offset, rest⟩ := cursor
  cases rest with
  | nil =>
      cases follows
  | cons first rest =>
      cases follows
      cases rest with
      | nil =>
          exact absurd (notDigit.symm.trans starts) Bool.false_ne_true
      | cons second rest =>
          simp only [startsNumber, notDigit, notPoint, Bool.false_or,
            decide_false, Bool.false_and, Bool.false_eq_true] at starts

theorem identifier?_eq_none {cursor : Cursor} {char : Char}
    (follows : cursor.peek? = some char)
    (notStart : isIdentifierStart char = false) :
    cursor.identifier? = none := by
  have absent : ¬ cursor.startsIdentifier := by
    rw [startsIdentifier, follows, Option.any_some, notStart]
    exact Bool.false_ne_true
  rw [identifier?, if_neg absent]

theorem exists_start_of_identifier? {cursor next : Cursor} {name : String}
    (read : cursor.identifier? = some (name, next)) :
    ∃ char, cursor.peek? = some char ∧ isIdentifierStart char = true := by
  unfold identifier? at read
  split at read
  · rename_i starts
    obtain ⟨char, follows, isStart⟩ := (Option.any_eq_true _ _).1 starts
    exact ⟨char, follows, isStart⟩
  · cases read

theorem isDigit_eq_false_of_isIdentifierStart {char : Char}
    (isStart : isIdentifierStart char = true) : isDigit char = false := by
  cases digit : isDigit char with
  | false =>
      rfl
  | true =>
      simp only [isDigit, isIdentifierStart, Bool.and_eq_true,
        Bool.or_eq_true, decide_eq_true_eq, Char.le_def,
        UInt32.le_iff_toNat_le] at digit isStart
      rcases isStart with ((lower | upper) | rfl) | rfl
      · exact absurd (Nat.le_trans lower.1 digit.2) (by decide)
      · exact absurd (Nat.le_trans upper.1 digit.2) (by decide)
      · exact absurd digit.2 (by decide)
      · exact absurd digit.1 (by decide)

theorem peek?_of_string {cursor next : Cursor} {text : String}
    (read : cursor.string = .ok (text, next)) : cursor.peek? = some '"' := by
  unfold string at read
  split at read
  · assumption
  · cases read

/-- A sign is the first character of a unary operator and of nothing else that
an operand may begin with. -/
theorem exists_sign_of_munches {cursor next : Cursor}
    {operator : UnaryOperator}
    (munches : cursor.Munches UnaryOperator.symbol operator next) :
    ∃ sign, cursor.peek? = some sign ∧ isDigit sign = false ∧
      sign ≠ '.' ∧ sign ≠ '"' ∧ isIdentifierStart sign = false ∧
        sign ≠ '(' := by
  obtain ⟨rest, restEq⟩ := munches.1
  rw [peek?, ← restEq]
  cases operator with
  | negate =>
      exact ⟨'-', rfl, by decide⟩
  | plus =>
      exact ⟨'+', rfl, by decide⟩
  | not =>
      exact ⟨'!', rfl, by decide⟩
  | complement =>
      exact ⟨'~', rfl, by decide⟩

theorem peek?_ne_of_munches {cursor next : Cursor} {operator : BinaryOperator}
    (munches : cursor.Munches BinaryOperator.symbol operator next) :
    cursor.peek? ≠ some ')' := by
  obtain ⟨rest, restEq⟩ := munches.1
  have starts : ∀ operator ∈ BinaryOperator.all,
      operator.symbol.toList.head? ≠ some ')' := by
    decide
  have different := starts operator operator.mem_all
  obtain ⟨first, tail, symbolEq⟩ :=
    List.exists_cons_of_ne_nil (OperatorTable.lists_binary.nonempty operator)
  rw [symbolEq] at restEq different
  rw [peek?, ← restEq]
  exact different

end Cursor

/-! ## One lexeme -/

/-- Where something is expected, a lexeme is read from one place to another. -/
inductive Reads : Expectation → Cursor → Lexeme → Cursor → Prop
  | number {start stop : Cursor} {value : Number}
      (follows : start.startsNumber)
      (read : start.number false = .ok (value, stop)) :
      Reads .operand start (.constant (.number value)) stop
  | negativeNumber {start middle stop : Cursor} {value : Number}
      (sign : start.Munches UnaryOperator.symbol .negate middle)
      (follows : middle.startsNumber)
      (read : middle.number true = .ok (value, stop)) :
      Reads .operand start (.constant (.number value)) stop
  | string {start stop : Cursor} {text : String}
      (read : start.string = .ok (text, stop)) :
      Reads .operand start (.constant (.string text)) stop
  | word {start stop : Cursor} {name : String}
      (read : start.identifier? = some (name, stop)) :
      Reads .operand start (.word name) stop
  | opening {start stop : Cursor} (read : start.eat? '(' = some stop) :
      Reads .operand start .opening stop
  | unary {start stop : Cursor} {operator : UnaryOperator}
      (sign : start.Munches UnaryOperator.symbol operator stop)
      (notLiteral : operator = .negate → ¬ stop.startsNumber) :
      Reads .operand start (.unary operator) stop
  | closing {start stop : Cursor} (read : start.eat? ')' = some stop) :
      Reads .operator start .closing stop
  | binary {start stop : Cursor} {operator : BinaryOperator}
      (symbol : start.Munches BinaryOperator.symbol operator stop) :
      Reads .operator start (.binary operator) stop
  | memberName {start stop : Cursor} {name : String}
      (read : start.identifier? = some (name, stop)) :
      Reads .memberName start (.memberName name) stop

theorem Reads.allows {expectation : Expectation} {start stop : Cursor}
    {lexeme : Lexeme} (reads : Reads expectation start lexeme stop) :
    expectation.Allows lexeme := by
  cases reads <;> trivial

namespace Cursor

theorem numberLexeme_eq_ok {cursor next : Cursor} {negative : Bool}
    {lexeme : Lexeme}
    (read : cursor.numberLexeme negative = .ok (lexeme, next)) :
    ∃ value, cursor.number negative = .ok (value, next) ∧
      lexeme = .constant (.number value) := by
  unfold numberLexeme at read
  split at read
  · rename_i value stop numberRead
    cases read
    exact ⟨value, numberRead, rfl⟩
  · cases read

theorem numberLexeme_of_number {cursor next : Cursor} {negative : Bool}
    {value : Number} (read : cursor.number negative = .ok (value, next)) :
    cursor.numberLexeme negative = .ok (.constant (.number value), next) := by
  rw [numberLexeme, read]

theorem reads_of_operandLexeme {cursor next : Cursor} {lexeme : Lexeme}
    (read : cursor.operandLexeme = .ok (lexeme, next)) :
    Reads .operand cursor lexeme next := by
  unfold operandLexeme at read
  split at read
  · rename_i follows
    obtain ⟨value, numberRead, rfl⟩ := numberLexeme_eq_ok read
    exact .number follows numberRead
  split at read
  · split at read
    · rename_i stringRead
      cases read
      exact .string stringRead
    · cases read
  split at read
  · rename_i identifierRead
    cases read
    exact .word identifierRead
  split at read
  · rename_i opened
    cases read
    exact .opening (eat?_eq_some_iff.2 ⟨opened, rfl⟩)
  split at read
  · cases read
  · cases read
  rename_i operator middle operatorRead
  have sign := (operator?_eq_some_iff OperatorTable.lists_unary).1 operatorRead
  split at read
  · rename_i literal
    obtain ⟨rfl, follows⟩ := literal
    obtain ⟨value, numberRead, rfl⟩ := numberLexeme_eq_ok read
    exact .negativeNumber sign follows numberRead
  · rename_i notLiteral
    cases read
    exact .unary sign fun isNegate follows => notLiteral ⟨isNegate, follows⟩

theorem reads_of_lexeme {cursor next : Cursor} {expectation : Expectation}
    {lexeme : Lexeme}
    (read : cursor.lexeme expectation = .ok (lexeme, next)) :
    Reads expectation cursor lexeme next := by
  cases expectation with
  | operand =>
      exact reads_of_operandLexeme read
  | operator =>
      have operatorRead : cursor.operatorLexeme = .ok (lexeme, next) := read
      unfold operatorLexeme at operatorRead
      split at operatorRead
      · rename_i closes
        cases operatorRead
        exact .closing (eat?_eq_some_iff.2 ⟨closes, rfl⟩)
      split at operatorRead
      · cases operatorRead
      · cases operatorRead
      · rename_i symbolRead
        cases operatorRead
        exact .binary
          ((operator?_eq_some_iff OperatorTable.lists_binary).1 symbolRead)
  | memberName =>
      have nameRead : cursor.memberLexeme = .ok (lexeme, next) := read
      unfold memberLexeme at nameRead
      split at nameRead
      · rename_i identifierRead
        cases nameRead
        exact .memberName identifierRead
      · cases nameRead

/-- Where a sign follows, nothing but a signed number or a unary operator is
read. -/
theorem operandLexeme_of_munches {cursor next : Cursor}
    {operator : UnaryOperator}
    (munches : cursor.Munches UnaryOperator.symbol operator next) :
    cursor.operandLexeme =
      if operator = .negate ∧ next.startsNumber then next.numberLexeme true
      else .ok (.unary operator, next) := by
  obtain ⟨sign, follows, notDigit, notPoint, notQuote, notStart, notOpening⟩ :=
    exists_sign_of_munches munches
  have noNumber := not_startsNumber follows notDigit notPoint
  have noString : cursor.peek? ≠ some '"' :=
    fun other => notQuote (Option.some.inj (follows.symm.trans other))
  have noGroup : cursor.peek? ≠ some '(' :=
    fun other => notOpening (Option.some.inj (follows.symm.trans other))
  rw [operandLexeme, if_neg noNumber, if_neg noString,
    identifier?_eq_none follows notStart]
  simp only [if_neg noGroup]
  rw [(operator?_eq_some_iff OperatorTable.lists_unary).2 munches]

end Cursor

theorem Reads.lexeme_eq {expectation : Expectation} {start stop : Cursor}
    {lexeme : Lexeme} (reads : Reads expectation start lexeme stop) :
    start.lexeme expectation = .ok (lexeme, stop) := by
  cases reads with
  | number follows read =>
      show start.operandLexeme = _
      rw [Cursor.operandLexeme, if_pos follows,
        Cursor.numberLexeme_of_number read]
  | negativeNumber sign follows read =>
      show start.operandLexeme = _
      rw [Cursor.operandLexeme_of_munches sign, if_pos ⟨rfl, follows⟩,
        Cursor.numberLexeme_of_number read]
  | string read =>
      have quote := Cursor.peek?_of_string read
      have noNumber :=
        Cursor.not_startsNumber quote (by decide) (by decide)
      show start.operandLexeme = _
      rw [Cursor.operandLexeme, if_neg noNumber, if_pos quote, read]
  | word read =>
      obtain ⟨first, follows, isStart⟩ :=
        Cursor.exists_start_of_identifier? read
      have notPoint : first ≠ '.' := by
        rintro rfl
        exact absurd isStart (by decide)
      have noNumber := Cursor.not_startsNumber follows
        (Cursor.isDigit_eq_false_of_isIdentifierStart isStart) notPoint
      have noString : start.peek? ≠ some '"' := by
        intro quote
        obtain rfl := Option.some.inj (follows.symm.trans quote)
        exact absurd isStart (by decide)
      show start.operandLexeme = _
      rw [Cursor.operandLexeme, if_neg noNumber, if_neg noString, read]
  | opening read =>
      obtain ⟨follows, rfl⟩ := Cursor.eat?_eq_some_iff.1 read
      have noNumber :=
        Cursor.not_startsNumber follows (by decide) (by decide)
      have noString : start.peek? ≠ some '"' := by
        rw [follows]
        decide
      show start.operandLexeme = _
      rw [Cursor.operandLexeme, if_neg noNumber, if_neg noString,
        Cursor.identifier?_eq_none follows (by decide)]
      simp only [if_pos follows]
  | unary sign notLiteral =>
      show start.operandLexeme = _
      rw [Cursor.operandLexeme_of_munches sign,
        if_neg fun literal => notLiteral literal.1 literal.2]
  | closing read =>
      obtain ⟨follows, rfl⟩ := Cursor.eat?_eq_some_iff.1 read
      show start.operatorLexeme = _
      rw [Cursor.operatorLexeme, if_pos follows]
  | binary symbol =>
      show start.operatorLexeme = _
      rw [Cursor.operatorLexeme, if_neg (Cursor.peek?_ne_of_munches symbol),
        (Cursor.operator?_eq_some_iff OperatorTable.lists_binary).2 symbol]
  | memberName read =>
      show start.memberLexeme = _
      rw [Cursor.memberLexeme, read]

/-! ## A chain of lexemes -/

/-- Lexemes follow one another from one place to another, each expected after
the one before it. Blanks may stand before every one. -/
inductive Lexes :
    Expectation → Cursor → List PlacedLexeme → Expectation → Cursor → Prop
  | done {expectation : Expectation} {stop : Cursor} :
      Lexes expectation stop [] expectation stop
  | next {expectation last : Expectation} {start middle stop : Cursor}
      {lexeme : Lexeme} {rest : List PlacedLexeme}
      (reads : Reads expectation start.skipBlanks lexeme middle)
      (follow : Lexes lexeme.next middle rest last stop) :
      Lexes expectation start (⟨start.skipBlanks.offset, lexeme⟩ :: rest)
        last stop

namespace Lexes

theorem append {first second : List PlacedLexeme}
    {expectation between last : Expectation} {start middle stop : Cursor}
    (before : Lexes expectation start first between middle)
    (after : Lexes between middle second last stop) :
    Lexes expectation start (first ++ second) last stop := by
  induction before with
  | done =>
      exact after
  | next reads _ inductionHypothesis =>
      exact .next reads (inductionHypothesis after)

theorem of_append {first second : List PlacedLexeme} {last : Expectation}
    {stop : Cursor} :
    ∀ {expectation : Expectation} {start : Cursor},
      Lexes expectation start (first ++ second) last stop →
        ∃ between middle, Lexes expectation start first between middle ∧
          Lexes between middle second last stop := by
  induction first with
  | nil =>
      intro expectation start lexes
      exact ⟨expectation, start, .done, lexes⟩
  | cons placed rest inductionHypothesis =>
      intro expectation start lexes
      cases lexes with
      | next reads follow =>
          obtain ⟨between, middle, before, after⟩ := inductionHypothesis follow
          exact ⟨between, middle, .next reads before, after⟩

theorem leads {expectation last : Expectation} {start stop : Cursor}
    {lexemes : List PlacedLexeme}
    (lexes : Lexes expectation start lexemes last stop) :
    expectation.Leads lexemes last := by
  induction lexes with
  | done =>
      rfl
  | next reads _ inductionHypothesis =>
      exact ⟨reads.allows, inductionHypothesis⟩

/-- A chain that ends where the source may end is what the source is cut
into. -/
theorem lexemesFrom_eq {expectation last : Expectation} {start stop : Cursor}
    {lexemes : List PlacedLexeme}
    (lexes : Lexes expectation start lexemes last stop)
    (complete : last = .operator ∧ stop.skipBlanks.atEnd) :
    ∀ read, start.lexemesFrom read expectation =
      ⟨read.reverse ++ lexemes, none⟩ := by
  induction lexes with
  | done =>
      intro read
      rw [Cursor.lexemesFrom]
      simp only [if_pos complete, List.append_nil]
  | @next expectation last start middle stop lexeme rest reads _
      inductionHypothesis =>
      intro read
      have lexemeRead := reads.lexeme_eq
      have goesOn : ¬ (expectation = .operator ∧ start.skipBlanks.atEnd) := by
        rintro ⟨_, atEnd⟩
        have shorter := Cursor.length_lt_of_lexeme lexemeRead
        rw [List.isEmpty_iff.1 atEnd] at shorter
        exact absurd shorter (Nat.not_lt_zero _)
      rw [Cursor.lexemesFrom]
      simp only [if_neg goesOn]
      split
      · rename_i failed
        cases lexemeRead.symm.trans failed
      · rename_i other after succeeded
        cases lexemeRead.symm.trans succeeded
        rw [inductionHypothesis complete, List.reverse_cons, List.append_assoc]
        rfl

end Lexes

/-- What a source is cut into is a chain, up to its end if there is no error. -/
theorem Cursor.exists_lexes (read : List PlacedLexeme)
    (expectation : Expectation) (cursor : Cursor) :
    ∃ lexemes last stop,
      (cursor.lexemesFrom read expectation).lexemes = read.reverse ++ lexemes ∧
        Lexes expectation cursor lexemes last stop ∧
          ((cursor.lexemesFrom read expectation).error? = none →
            last = .operator ∧ stop.skipBlanks.atEnd) := by
  fun_induction Cursor.lexemesFrom read expectation cursor with
  | case1 read expectation cursor place ended =>
      exact ⟨[], expectation, cursor, (List.append_nil _).symm, .done,
        fun _ => ended⟩
  | case2 read expectation cursor =>
      refine ⟨[], expectation, cursor, (List.append_nil _).symm, .done, ?_⟩
      intro complete
      cases complete
  | case3 read expectation cursor place _ lexeme next taken
      inductionHypothesis =>
      obtain ⟨rest, last, stop, lexemesEq, follow, ended⟩ :=
        inductionHypothesis
      refine ⟨⟨place.offset, lexeme⟩ :: rest, last, stop, ?_,
        .next (reads_of_lexeme taken) follow, ended⟩
      rw [lexemesEq, List.reverse_cons, List.append_assoc]
      rfl

/-- The lexemes of a source follow one another in it, up to its end unless
there is an error. -/
theorem LexemeList.exists_lexes_ofSource (source : String) :
    ∃ last stop,
      Lexes .operand (Cursor.start source) (LexemeList.ofSource source).lexemes
          last stop ∧
        ((LexemeList.ofSource source).error? = none →
          last = .operator ∧ stop.skipBlanks.atEnd) := by
  obtain ⟨lexemes, last, stop, lexemesEq, lexes, ended⟩ :=
    Cursor.exists_lexes [] .operand (Cursor.start source)
  have cut : (LexemeList.ofSource source).lexemes = lexemes := lexemesEq
  rw [← cut] at lexes
  exact ⟨last, stop, lexes, ended⟩

theorem LexemeList.ofSource_eq_iff {source : String}
    {lexemes : List PlacedLexeme} :
    LexemeList.ofSource source = ⟨lexemes, none⟩ ↔
      ∃ stop, Lexes .operand (Cursor.start source) lexemes .operator stop ∧
        stop.skipBlanks.atEnd := by
  constructor
  · intro cut
    obtain ⟨last, stop, lexes, ended⟩ :=
      LexemeList.exists_lexes_ofSource source
    rw [cut] at lexes ended
    obtain ⟨rfl, atEnd⟩ := ended rfl
    exact ⟨stop, lexes, atEnd⟩
  · rintro ⟨stop, lexes, atEnd⟩
    exact lexes.lexemesFrom_eq ⟨rfl, atEnd⟩ []

end Formula
