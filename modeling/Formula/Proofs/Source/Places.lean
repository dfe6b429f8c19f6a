import Formula.Proofs.Source.Lexing
import Formula.Proofs.Text.Escape

/-!
# Places of faults

Where a fault shows when a lexeme is read: at a place that is reached from
where the reading began, so that as many bytes lie before it as the characters
before it take.
-/

namespace Formula

/-! ## Faults of escape sequences -/

theorem utf8Size_of_hexadecimalValue? {char : Char} {digit : Nat}
    (isDigit : hexadecimalValue? char = some digit) : char.utf8Size = 1 := by
  have single {last : Char} (atMost : char ≤ last)
      (isLast : last.val ≤ 127) : char.utf8Size = 1 :=
    Char.utf8Size_eq_one_iff.2 (UInt32.le_trans atMost isLast)
  unfold hexadecimalValue? at isDigit
  split_ifs at isDigit with decimal lower upper
  · exact single decimal.2 (by decide)
  · exact single lower.2 (by decide)
  · exact single upper.2 (by decide)

theorem utf8Size_of_namedEscape? {char named : Char}
    (isNamed : namedEscape? char = some named) : char.utf8Size = 1 := by
  unfold namedEscape? at isNamed
  split_ifs at isNamed with newline carriageReturn tab backspace formFeed null
    itself
  all_goals first
    | subst char; rfl
    | rcases itself with rfl | rfl | rfl <;> rfl

namespace EscapeError

/-- A fault shows at a character of a text that begins at a position. -/
def IsWithin (error : EscapeError) (start : Nat) (text : List Char) : Prop :=
  ∃ before char after, text = before ++ char :: after ∧
    error.position = start + utf8Length before

theorem isWithin_start (start : Nat) (fault : EscapeFault) (char : Char)
    (rest : List Char) : IsWithin ⟨start, fault⟩ start (char :: rest) :=
  ⟨[], char, rest, rfl, rfl⟩

variable {error : EscapeError} {start : Nat}

theorem IsWithin.of_append {next : Nat} {rest : List Char}
    (within : error.IsWithin next rest) (first : List Char)
    (isNext : next = start + utf8Length first) :
    error.IsWithin start (first ++ rest) := by
  obtain ⟨before, char, after, rfl, position⟩ := within
  refine ⟨first ++ before, char, after, (List.append_assoc _ _ _).symm, ?_⟩
  rw [position, isNext, utf8Length_append, Nat.add_assoc]

theorem IsWithin.append {first : List Char}
    (within : error.IsWithin start first) (rest : List Char) :
    error.IsWithin start (first ++ rest) := by
  obtain ⟨before, char, after, rfl, position⟩ := within
  exact ⟨before, char, after ++ rest, List.append_assoc _ _ _, position⟩

end EscapeError

theorem isWithin_of_readHexadecimal {error : EscapeError}
    {digits : List Char} :
    ∀ {position value : Nat},
      readHexadecimal position value digits = .error error →
        error.IsWithin position digits := by
  induction digits with
  | nil =>
      intro position value failed
      cases failed
  | cons char rest inductionHypothesis =>
      intro position value failed
      rw [readHexadecimal] at failed
      split at failed
      · rename_i isDigit
        have width := utf8Size_of_hexadecimalValue? isDigit
        exact (inductionHypothesis failed).of_append [char]
          (by simp [width])
      · cases failed
        exact EscapeError.isWithin_start _ _ _ _

theorem utf8Length_of_readHexadecimal {digits : List Char} :
    ∀ {position value result : Nat},
      readHexadecimal position value digits = .ok result →
        utf8Length digits = digits.length := by
  induction digits with
  | nil =>
      intro position value result read
      rfl
  | cons char rest inductionHypothesis =>
      intro position value result read
      rw [readHexadecimal] at read
      split at read
      · rename_i isDigit
        have width := utf8Size_of_hexadecimalValue? isDigit
        rw [utf8Length_cons, width, inductionHypothesis read,
          List.length_cons, Nat.add_comm]
      · cases read

theorem isWithin_of_readCodePoint {error : EscapeError} {position : Nat}
    {digits : List Char}
    (failed : readCodePoint position digits = .error error) :
    error.IsWithin position ('\\' :: 'u' :: digits) := by
  unfold readCodePoint at failed
  split at failed
  · rename_i hexadecimalFailed
    cases failed
    exact (isWithin_of_readHexadecimal hexadecimalFailed).of_append
      ['\\', 'u'] rfl
  · rename_i value _
    by_cases tooFew : digits.length < 4
    · rw [if_pos tooFew] at failed
      cases failed
      exact EscapeError.isWithin_start _ _ _ _
    · rw [if_neg tooFew] at failed
      by_cases isValid : value.isValidChar
      · rw [dif_pos isValid] at failed
        cases failed
      · rw [dif_neg isValid] at failed
        cases failed
        exact EscapeError.isWithin_start _ _ _ _

theorem utf8Length_of_readCodePoint {position : Nat} {digits : List Char}
    {char : Char} (read : readCodePoint position digits = .ok char) :
    utf8Length digits = digits.length := by
  unfold readCodePoint at read
  split at read
  · cases read
  · rename_i hexadecimalRead
    exact utf8Length_of_readHexadecimal hexadecimalRead

/-- A faulty escape sequence shows at a character of the content. -/
theorem isWithin_of_unescapeFrom {error : EscapeError} {position : Nat}
    {written text : List Char}
    (failed : unescapeFrom position written text = .error error) :
    error.IsWithin position text := by
  fun_induction unescapeFrom position written text with
  | case1 =>
      cases failed
  | case2 position written first second third fourth rest char read
      inductionHypothesis =>
      have width := utf8Length_of_readCodePoint read
      refine (inductionHypothesis failed).of_append
        ['\\', 'u', first, second, third, fourth] ?_
      have width' : utf8Length [first, second, third, fourth] = 4 := width
      have ascii : utf8Length ['\\', 'u'] = 2 := rfl
      simp only [utf8Length_cons, utf8Length_nil] at width' ascii ⊢
      omega
  | case3 position written first second third fourth rest reported
      readFailed =>
      cases failed
      exact (isWithin_of_readCodePoint readFailed).append rest
  | case4 position written digits _ =>
      cases read : readCodePoint position digits with
      | ok char =>
          rw [read] at failed
          cases failed
      | error reported =>
          rw [read] at failed
          cases failed
          exact isWithin_of_readCodePoint read
  | case5 position written char rest _ _ named isNamed inductionHypothesis =>
      have width : char.utf8Size = 1 := utf8Size_of_namedEscape? isNamed
      have backslash : '\\'.utf8Size = 1 := rfl
      refine (inductionHypothesis failed).of_append ['\\', char] ?_
      rw [utf8Length_cons, utf8Length_cons, width, backslash, utf8Length_nil]
  | case6 | case7 =>
      cases failed
      exact EscapeError.isWithin_start _ _ _ _
  | case8 position written char rest _ _ _ _ inductionHypothesis =>
      exact (inductionHypothesis failed).of_append [char] rfl

/-! ## Places that are reached -/

namespace Cursor

theorem rest_span (cursor : Cursor) (accepts : Char → Bool) :
    cursor.rest =
      (cursor.span accepts).1 ++ (cursor.span accepts).2.rest :=
  (List.prefix_iff_eq_append.1 (List.takeWhile_prefix accepts)).symm

theorem reaches_of_identifier? {cursor next : Cursor} {name : String}
    (read : cursor.identifier? = some (name, next)) : cursor.Reaches next := by
  unfold identifier? at read
  split at read
  · cases read
    exact reaches_span cursor isIdentifierPart
  · cases read

theorem reaches_of_eat? {cursor next : Cursor} {char : Char}
    (read : cursor.eat? char = some next) : cursor.Reaches next := by
  obtain ⟨_, rfl⟩ := eat?_eq_some_iff.1 read
  exact reaches_skip cursor

theorem Munches.reaches {α : Type} {symbol : α → String}
    {cursor next : Cursor} {operator : α}
    (munches : cursor.Munches symbol operator next) : cursor.Reaches next := by
  obtain ⟨follows, _, rfl⟩ := munches
  exact reaches_advance follows

end Cursor

theorem Reads.reaches {expectation : Expectation} {start stop : Cursor}
    {lexeme : Lexeme} (reads : Reads expectation start lexeme stop) :
    start.Reaches stop := by
  cases reads with
  | number _ read =>
      exact (Cursor.reaches_number read).1
  | negativeNumber sign _ read =>
      exact sign.reaches.trans (Cursor.reaches_number read).1
  | string read =>
      exact (Cursor.reaches_string read).1
  | word read | memberName read =>
      exact Cursor.reaches_of_identifier? read
  | opening read | closing read =>
      exact Cursor.reaches_of_eat? read
  | unary sign _ =>
      exact sign.reaches
  | binary symbol =>
      exact symbol.reaches

/-- Every lexeme begins at a place that is reached. -/
theorem Lexes.exists_reaches {expectation last : Expectation}
    {start stop : Cursor} {lexemes : List PlacedLexeme}
    (lexes : Lexes expectation start lexemes last stop) :
    ∀ placed ∈ lexemes,
      ∃ place, start.Reaches place ∧ place.offset = placed.offset := by
  induction lexes with
  | done =>
      intro placed isLexeme
      cases isLexeme
  | @next _ _ start middle _ lexeme _ reads _ inductionHypothesis =>
      intro placed isLexeme
      have toLexeme := start.reaches_skipBlanks
      rcases List.mem_cons.1 isLexeme with rfl | isLater
      · exact ⟨start.skipBlanks, toLexeme, rfl⟩
      · obtain ⟨place, reached, isPlace⟩ := inductionHypothesis placed isLater
        exact ⟨place, (toLexeme.trans reads.reaches).trans reached, isPlace⟩

/-! ## Faults of lexemes -/

namespace Cursor

/-- An error shows at a place that is reached from a cursor. -/
def Locates (cursor : Cursor) (error : Error) : Prop :=
  ∃ place fault, cursor.Reaches place ∧ error = place.error fault

theorem locates_error (cursor : Cursor) (fault : SyntaxFault) :
    cursor.Locates (cursor.error fault) :=
  ⟨cursor, fault, .refl cursor, rfl⟩

theorem Reaches.locates {before after : Cursor} {error : Error}
    (reached : before.Reaches after) (located : after.Locates error) :
    before.Locates error := by
  obtain ⟨place, fault, placeReached, isError⟩ := located
  exact ⟨place, fault, reached.trans placeReached, isError⟩

variable {cursor : Cursor} {error : Error}

theorem locates_of_exponent (failed : cursor.exponent = .error error) :
    cursor.Locates error := by
  unfold exponent at failed
  split at failed
  · dsimp only at failed
    split at failed
    · cases failed
      exact ((reaches_skip cursor).trans (reaches_sign _)).locates
        (locates_error _ _)
    · cases failed
  · cases failed

theorem locates_of_numeral (failed : cursor.numeral = .error error) :
    cursor.Locates error := by
  unfold numeral at failed
  dsimp only at failed
  split at failed
  · rename_i exponentFailed
    cases failed
    exact ((reaches_digits cursor).trans (reaches_fraction _)).locates
      (locates_of_exponent exponentFailed)
  · cases failed

theorem locates_of_endNumber {value : Number}
    (failed : endNumber value cursor = .error error) :
    cursor.Locates error := by
  unfold endNumber at failed
  split at failed
  · cases failed
    exact locates_error _ _
  · cases failed

theorem locates_of_hexadecimalNumber {negative : Bool}
    (failed : cursor.hexadecimalNumber negative = .error error) :
    cursor.Locates error := by
  unfold hexadecimalNumber at failed
  dsimp only at failed
  split at failed
  · cases failed
    exact locates_error _ _
  · split at failed
    · have reached := ((reaches_skip cursor).trans
        (reaches_skip cursor.skip)).trans (reaches_span cursor.skip.skip
          fun char => (hexadecimalValue? char).isSome)
      exact (reached.trans (reaches_longSuffix _)).locates
        (locates_of_endNumber failed)
    · cases failed
      exact locates_error _ _

theorem locates_of_decimalNumber {negative : Bool}
    (failed : cursor.decimalNumber negative = .error error) :
    cursor.Locates error := by
  unfold decimalNumber at failed
  split at failed
  · rename_i numeralFailed
    cases failed
    exact locates_of_numeral numeralFailed
  · rename_i numeral afterNumeral numeralRead
    dsimp only at failed
    split at failed
    · exact ((reaches_numeral numeralRead).trans
        (reaches_suffix afterNumeral numeral.isFractional)).locates
          (locates_of_endNumber failed)
    · cases failed
      exact locates_error _ _

theorem locates_of_number {negative : Bool}
    (failed : cursor.number negative = .error error) :
    cursor.Locates error := by
  unfold number at failed
  split at failed
  · exact locates_of_hexadecimalNumber failed
  · exact locates_of_decimalNumber failed

theorem locates_of_numberLexeme {negative : Bool}
    (failed : cursor.numberLexeme negative = .error error) :
    cursor.Locates error := by
  unfold numberLexeme at failed
  split at failed
  · cases failed
  · rename_i numberFailed
    cases failed
    exact locates_of_number numberFailed

/-- A faulty escape sequence shows where it is behind the opening quote. -/
theorem locates_of_unescape {content : List Char} {reported : EscapeError}
    (follows : content <+: cursor.rest)
    (failed : unescape content = .error reported) :
    cursor.Locates
      (.written (cursor.offset + reported.position)
        (.escape reported.fault)) := by
  obtain ⟨before, char, after, rfl, position⟩ :=
    isWithin_of_unescapeFrom (unescape_eq_error_iff.1 failed)
  have reached : before <+: cursor.rest :=
    (List.prefix_append before (char :: after)).trans follows
  refine ⟨cursor.advance before, .escape reported.fault,
    reaches_advance reached, ?_⟩
  rw [position, Nat.zero_add]
  rfl

theorem locates_of_string (failed : cursor.string = .error error) :
    cursor.Locates error := by
  unfold string at failed
  split at failed
  · dsimp only at failed
    split at failed
    · cases failed
      exact locates_error _ _
    · rename_i content found
      obtain ⟨inner, rest, contentEq, restEq⟩ := exists_of_contentFrom? found
      have follows : content <+: cursor.skip.rest :=
        ⟨'"' :: rest, by simp [contentEq, restEq]⟩
      split at failed
      · cases failed
      · rename_i unescapeFailed
        cases failed
        exact (reaches_skip cursor).locates
          (locates_of_unescape follows unescapeFailed)
  · cases failed
    exact locates_error _ _

theorem locates_of_operator? {α : Type} {table : OperatorTable α}
    (failed : cursor.operator? table = .error error) :
    cursor.Locates error := by
  obtain ⟨text, _, taken⟩ := exists_operator?_eq cursor table
  rw [taken, takeOperator_eq_error_iff] at failed
  obtain ⟨_, _, rfl⟩ := failed
  exact locates_error _ _

theorem locates_of_operandLexeme
    (failed : cursor.operandLexeme = .error error) :
    cursor.Locates error := by
  unfold operandLexeme at failed
  split at failed
  · exact locates_of_numberLexeme failed
  split at failed
  · split at failed
    · cases failed
    · rename_i stringFailed
      cases failed
      exact locates_of_string stringFailed
  split at failed
  · cases failed
  split at failed
  · cases failed
  split at failed
  · rename_i operatorFailed
    cases failed
    exact locates_of_operator? operatorFailed
  · cases failed
    exact locates_error _ _
  · rename_i operator next operatorRead
    split at failed
    · have sign :=
        (operator?_eq_some_iff OperatorTable.lists_unary).1 operatorRead
      exact sign.reaches.locates (locates_of_numberLexeme failed)
    · cases failed

theorem locates_of_lexeme {expectation : Expectation}
    (failed : cursor.lexeme expectation = .error error) :
    cursor.Locates error := by
  cases expectation with
  | operand =>
      exact locates_of_operandLexeme failed
  | operator =>
      simp only [lexeme, operatorLexeme] at failed
      split at failed
      · cases failed
      split at failed
      · rename_i operatorFailed
        cases failed
        exact locates_of_operator? operatorFailed
      · cases failed
        exact locates_error _ _
      · cases failed
  | memberName =>
      simp only [lexeme, memberLexeme] at failed
      split at failed
      · cases failed
      · cases failed
        exact locates_error _ _

/-- What ends the cutting into lexemes shows at a place that is reached. -/
theorem locates_of_lexemesFrom (read : List PlacedLexeme)
    (expectation : Expectation) (cursor : Cursor) {error : Error}
    (failed : (cursor.lexemesFrom read expectation).error? = some error) :
    cursor.Locates error := by
  fun_induction lexemesFrom read expectation cursor with
  | case1 =>
      cases failed
  | case2 read expectation cursor place _ reported lexemeFailed =>
      cases failed
      exact (reaches_skipBlanks cursor).locates
        (locates_of_lexeme lexemeFailed)
  | case3 read expectation cursor place _ lexeme next taken
      inductionHypothesis =>
      have toNext := (reaches_skipBlanks cursor).trans
        (reads_of_lexeme taken).reaches
      exact toNext.locates (inductionHypothesis failed)

end Cursor

end Formula
