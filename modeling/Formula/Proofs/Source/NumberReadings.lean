import Formula.Proofs.Source.NumericLiteral
import Formula.Proofs.Source.Readings

/-!
# Numbers read by offsets

The text of a decimal literal that is cut out of the source is the numeral that
a cursor reads, as a numeral does not depend on what follows it. So numeric
literals read by offsets are those that a cursor reads.
-/

namespace Formula

/-! ## Numerals without what follows -/

namespace Cursor

variable {cursor trimmed after : Cursor} {rest : List Char}

theorem Reaches.isSuffix (reached : cursor.Reaches after) :
    after.rest <:+ cursor.rest := by
  obtain ⟨text, split, _⟩ := reached
  exact ⟨text, split.symm⟩

theorem span_of_append {accepts : Char → Bool}
    (split : cursor.rest = trimmed.rest ++ rest)
    (within : rest <:+ (cursor.span accepts).2.rest) :
    ∃ next, trimmed.span accepts = ((cursor.span accepts).1, next) ∧
      (cursor.span accepts).2.rest = next.rest ++ rest := by
  obtain ⟨offset, text⟩ := cursor
  obtain ⟨run, behind, rfl, isRun, stops⟩ := exists_run accepts text
  rw [span_append offset isRun stops] at within ⊢
  obtain ⟨middle, rfl⟩ := within
  obtain ⟨other, text⟩ := trimmed
  obtain rfl : run ++ middle = text :=
    List.append_cancel_right ((List.append_assoc ..).trans split)
  refine ⟨_, span_append other isRun ?_, rfl⟩
  intro char isHead
  refine stops char ?_
  rw [List.head?_append, Option.mem_def.1 isHead]
  rfl

theorem skip_of_append (split : cursor.rest = trimmed.rest ++ rest)
    (longer : rest.length < cursor.rest.length) :
    trimmed.peek? = cursor.peek? ∧
      cursor.skip.rest = trimmed.skip.rest ++ rest := by
  obtain ⟨offset, text⟩ := cursor
  obtain ⟨other, _ | ⟨char, text⟩⟩ := trimmed
  · cases split
    exact absurd longer (Nat.lt_irrefl _)
  · cases split
    exact ⟨rfl, rfl⟩

theorem peek?_of_append {char : Char}
    (split : cursor.rest = trimmed.rest ++ rest)
    (isNext : trimmed.peek? = some char) : cursor.peek? = some char := by
  obtain ⟨text, isText⟩ := List.head?_eq_some_iff.1 isNext
  rw [peek?, split, isText]
  rfl

theorem startsPair_of_append {first second : Char → Bool}
    (split : cursor.rest = trimmed.rest ++ rest) :
    (trimmed.startsPair first second → cursor.startsPair first second) ∧
      (rest.length + 1 < cursor.rest.length →
        cursor.startsPair first second → trimmed.startsPair first second) := by
  obtain ⟨offset, text⟩ := cursor
  obtain ⟨other, _ | ⟨char, _ | ⟨next, text⟩⟩⟩ := trimmed <;> cases split
  · exact ⟨nofun, fun longer => absurd longer (by simp)⟩
  · exact ⟨nofun, fun longer => absurd longer (by simp)⟩
  · exact ⟨id, fun _ => id⟩

theorem fraction_eq (cursor : Cursor) :
    cursor.fraction =
      if cursor.startsPair (· = '.') isDigit then cursor.skip.digits
      else ([], cursor) := by
  obtain ⟨offset, _ | ⟨point, _ | ⟨first, text⟩⟩⟩ := cursor <;> rfl

theorem exists_of_startsPair {first second : Char → Bool}
    (starts : cursor.startsPair first second) :
    cursor.peek?.any first ∧
      ∃ next rest, cursor.skip.rest = next :: rest ∧ second next := by
  obtain ⟨offset, _ | ⟨char, _ | ⟨next, text⟩⟩⟩ := cursor
  · cases starts
  · cases starts
  · obtain ⟨isFirst, isSecond⟩ := (Bool.and_eq_true _ _).mp starts
    exact ⟨isFirst, next, text, rfl, isSecond⟩

theorem not_isEmpty_digits (cursor : Cursor) :
    (!cursor.digits.1.isEmpty) = cursor.peek?.any isDigit := by
  obtain ⟨offset, _ | ⟨char, text⟩⟩ := cursor
  · rfl
  · rw [digits, span]
    dsimp only
    rw [List.takeWhile_cons, peek?, List.head?_cons, Option.any_some]
    cases isDigit char <;> rfl

theorem digits_ne_nil_of_startsPair {first : Char → Bool}
    (starts : cursor.startsPair first isDigit) :
    cursor.skip.digits.1 ≠ [] := by
  obtain ⟨_, digit, text, restEq, isDigit⟩ := exists_of_startsPair starts
  exact digits_ne_nil_iff.2 ⟨digit, text, isDigit, restEq⟩

theorem length_digits_of_startsPair {first : Char → Bool}
    (starts : cursor.startsPair first isDigit) :
    cursor.skip.digits.2.rest.length + 1 < cursor.rest.length := by
  have follows : cursor.rest ≠ [] := by
    intro empty
    rw [startsPair, empty] at starts
    cases starts
  have digits : cursor.skip.digits.2.rest.length < cursor.skip.rest.length :=
    length_span_lt (digits_ne_nil_of_startsPair starts)
  exact Nat.lt_of_le_of_lt digits (length_skip_lt follows)

theorem fraction_of_append (split : cursor.rest = trimmed.rest ++ rest)
    (within : rest <:+ cursor.fraction.2.rest) :
    ∃ next, trimmed.fraction = (cursor.fraction.1, next) ∧
      cursor.fraction.2.rest = next.rest ++ rest := by
  rw [fraction_eq cursor] at within ⊢
  rw [fraction_eq trimmed]
  by_cases starts : cursor.startsPair (· = '.') isDigit
  · rw [if_pos starts] at within ⊢
    have shorter := length_digits_of_startsPair starts
    have longer :=
      Nat.lt_of_le_of_lt (Nat.succ_le_succ within.length_le) shorter
    rw [if_pos ((startsPair_of_append split).2 longer starts)]
    obtain ⟨_, skipped⟩ := skip_of_append split (Nat.lt_of_succ_lt longer)
    exact span_of_append skipped within
  · rw [if_neg starts, if_neg (mt (startsPair_of_append split).1 starts)]
    exact ⟨trimmed, rfl, split⟩

theorem sign_of_append (split : cursor.rest = trimmed.rest ++ rest)
    (within : rest <:+ cursor.sign.2.rest) :
    ∃ next, trimmed.sign = (cursor.sign.1, next) ∧
      cursor.sign.2.rest = next.rest ++ rest := by
  have skips {char : Char} (isNext : cursor.peek? = some char)
      (within : rest <:+ cursor.skip.rest) :
      trimmed.peek? = some char ∧
        cursor.skip.rest = trimmed.skip.rest ++ rest := by
    have follows : cursor.rest ≠ [] := by
      intro empty
      rw [peek?, empty] at isNext
      cases isNext
    have longer :=
      Nat.lt_of_le_of_lt within.length_le (length_skip_lt follows)
    rw [← isNext]
    exact skip_of_append split longer
  unfold sign at within ⊢
  by_cases minus : cursor.peek? = some '-'
  · rw [if_pos minus] at within ⊢
    obtain ⟨isNext, skipped⟩ := skips minus within
    exact ⟨trimmed.skip, if_pos isNext, skipped⟩
  rw [if_neg minus] at within ⊢
  rw [if_neg (mt (peek?_of_append split) minus)]
  by_cases plus : cursor.peek? = some '+'
  · rw [if_pos plus] at within ⊢
    obtain ⟨isNext, skipped⟩ := skips plus within
    exact ⟨trimmed.skip, if_pos isNext, skipped⟩
  · rw [if_neg plus, if_neg (mt (peek?_of_append split) plus)]
    exact ⟨trimmed, rfl, split⟩

theorem exponent_of_append {power : Option Int}
    (split : cursor.rest = trimmed.rest ++ rest)
    (read : cursor.exponent = .ok (power, after))
    (within : rest <:+ after.rest) :
    ∃ next, trimmed.exponent = .ok (power, next) ∧
      after.rest = next.rest ++ rest := by
  unfold exponent at read ⊢
  by_cases isMark : cursor.peek? = some 'e' ∨ cursor.peek? = some 'E'
  · have follows : cursor.rest ≠ [] := by
      intro empty
      rw [peek?, empty] at isMark
      simp at isMark
    rw [if_pos isMark] at read
    dsimp only at read
    split at read
    · cases read
    · cases read
      rename_i hasDigits
      have inSign :=
        within.trans (reaches_digits cursor.skip.sign.2).isSuffix
      have inMark := inSign.trans (reaches_sign cursor.skip).isSuffix
      obtain ⟨isNext, skipped⟩ := skip_of_append split
        (Nat.lt_of_le_of_lt inMark.length_le (length_skip_lt follows))
      obtain ⟨afterSign, signRead, signSplit⟩ :=
        sign_of_append skipped inSign
      obtain ⟨next, digitsRead, digitsSplit⟩ :=
        span_of_append signSplit within
      have digitsRead : afterSign.digits = _ := digitsRead
      refine ⟨next, ?_, digitsSplit⟩
      rw [isNext, if_pos isMark, signRead]
      dsimp only
      rw [digitsRead]
      exact if_neg hasDigits
  · rw [if_neg isMark] at read
    cases read
    have noMark := mt (Or.imp (peek?_of_append split) (peek?_of_append split))
      isMark
    exact ⟨trimmed, if_neg noMark, split⟩

theorem numeral_of_append {numeral : Numeral}
    (split : cursor.rest = trimmed.rest ++ rest)
    (read : cursor.numeral = .ok (numeral, after))
    (within : rest <:+ after.rest) :
    ∃ next, trimmed.numeral = .ok (numeral, next) ∧
      after.rest = next.rest ++ rest := by
  unfold Cursor.numeral at read ⊢
  dsimp only at read
  split at read
  · cases read
  · rename_i exponentRead
    cases read
    have inFraction := within.trans (reaches_exponent exponentRead).isSuffix
    have inWhole := inFraction.trans
      (reaches_fraction cursor.digits.2).isSuffix
    obtain ⟨afterWhole, wholeRead, wholeSplit⟩ := span_of_append split inWhole
    obtain ⟨afterFraction, fractionRead, fractionSplit⟩ :=
      fraction_of_append wholeSplit inFraction
    obtain ⟨next, trimmedRead, nextSplit⟩ :=
      exponent_of_append fractionSplit exponentRead within
    have wholeRead : trimmed.digits = _ := wholeRead
    refine ⟨next, ?_, nextSplit⟩
    rw [wholeRead]
    dsimp only
    rw [fractionRead]
    dsimp only
    rw [trimmedRead]
    rfl

/-- A numeral is the whole of the text that its reading passes over. -/
theorem numeralOf?_of_numeral {numeral : Numeral} {text : List Char}
    (read : cursor.numeral = .ok (numeral, after))
    (split : cursor.rest = text ++ after.rest) :
    Lexing.numeralOf? text = some numeral := by
  have split : cursor.rest = (Cursor.mk 0 text).rest ++ after.rest := split
  obtain ⟨next, trimmedRead, nextSplit⟩ :=
    numeral_of_append split read List.suffix_rfl
  obtain ⟨offset, behind⟩ := next
  obtain rfl : behind = [] := List.self_eq_append_left.1 nextSplit
  rw [Lexing.numeralOf?, trimmedRead]

end Cursor

/-! ## Decimal literals -/

namespace Lexing

open Cursor

theorem onlyAscii_eq {char : Char} (single : char.utf8Size = 1) :
    OnlyAscii (· = char) := by
  intro other same
  rw [of_decide_eq_true same]
  exact single

theorem onlyAscii_eq_or_eq {first second : Char}
    (firstSingle : first.utf8Size = 1) (secondSingle : second.utf8Size = 1) :
    OnlyAscii fun char => char = first || char = second := by
  intro other same
  rcases (Bool.or_eq_true _ _).mp same with isFirst | isSecond
  · exact onlyAscii_eq firstSingle other isFirst
  · exact onlyAscii_eq secondSingle other isSecond

theorem onlyAscii_hexadecimalValue? :
    OnlyAscii fun char => (hexadecimalValue? char).isSome := by
  intro char isDigit
  obtain ⟨_, hasValue⟩ := Option.isSome_iff_exists.1 isDigit
  exact utf8Size_of_hexadecimalValue? hasValue

theorem any_eq_or_eq_iff {next? : Option Char} {first second : Char} :
    (next?.any fun char => char = first || char = second) ↔
      next? = some first ∨ next? = some second := by
  cases next? <;> simp

variable {source : String} {cursor : Cursor}
variable (isPlace : (Cursor.start source).Reaches cursor)

include isPlace

theorem ends_skipFraction :
    Ends source skipFraction cursor (.ok !cursor.fraction.1.isEmpty)
      cursor.fraction.2 := by
  have point : OnlyAscii (· = '.') := onlyAscii_eq rfl
  obtain ⟨follow, ends, both⟩ :=
    exists_ends_follows_one isPlace point onlyAscii_isDigit
  refine (ends_follows isPlace point).bind (ends.bind ?_)
  rw [both, fraction_eq]
  by_cases starts : cursor.startsPair (· = '.') isDigit
  · have toPoint := ends_advance_one source point
      (exists_of_startsPair starts).1
    have toEnd := ends_skipWhile (isPlace.trans toPoint.reaches)
      onlyAscii_isDigit
    have hasDigits : cursor.skip.digits.1.isEmpty = false :=
      List.isEmpty_eq_false_iff.2 (digits_ne_nil_of_startsPair starts)
    rw [if_pos starts, if_pos starts, hasDigits]
    exact toPoint.bind (toEnd.bind (ends_pure _ _ _))
  · rw [if_neg starts, if_neg starts]
    exact ends_pure _ _ _

theorem ends_skipSign :
    Ends source skipSign cursor (.ok ()) cursor.sign.2 := by
  have sign : OnlyAscii fun char => char = '+' || char = '-' :=
    onlyAscii_eq_or_eq rfl rfl
  refine (ends_follows isPlace sign).bind ?_
  unfold Cursor.sign
  by_cases follows : cursor.peek?.any fun char => char = '+' || char = '-'
  · rw [if_pos follows]
    have skips := ends_advance_one source sign follows
    split
    · exact skips
    · rename_i notMinus
      rw [if_pos ((any_eq_or_eq_iff.1 follows).resolve_right notMinus)]
      exact skips
  · rw [if_neg follows]
    obtain ⟨notPlus, notMinus⟩ := not_or.1 (mt any_eq_or_eq_iff.2 follows)
    rw [if_neg notMinus, if_neg notPlus]
    exact ends_pure _ _ _

theorem agrees_skipExponent :
    Agrees source skipExponent cursor
      (cursor.exponent.map fun read => (read.1.isSome, read.2)) := by
  have mark : OnlyAscii fun char => char = 'e' || char = 'E' :=
    onlyAscii_eq_or_eq rfl rfl
  refine (ends_follows isPlace mark).bind_agrees ?_
  unfold exponent
  by_cases follows : cursor.peek?.any fun char => char = 'e' || char = 'E'
  · rw [if_pos follows, if_pos (any_eq_or_eq_iff.1 follows)]
    have toMark := ends_advance_one source mark follows
    have isMark := isPlace.trans toMark.reaches
    have toSign := ends_skipSign isMark
    have isSign := isMark.trans toSign.reaches
    refine toMark.bind_agrees (toSign.bind_agrees ?_)
    refine (ends_follows isSign onlyAscii_isDigit).bind_agrees ?_
    rw [← not_isEmpty_digits]
    dsimp only
    cases isEmpty : cursor.skip.sign.2.digits.1.isEmpty with
    | false =>
        have toEnd := ends_skipWhile isSign onlyAscii_isDigit
        exact toEnd.bind (ends_pure _ _ _)
    | true =>
        exact ⟨_, (ends_offset _ _).bind (ends_fail _ _ _)⟩
  · rw [if_neg follows, if_neg (mt any_eq_or_eq_iff.2 follows)]
    exact ends_pure _ _ _

theorem ends_suffix (fractional : Bool) :
    Ends source (suffix fractional) cursor
      (.ok (cursor.suffix fractional).1) (cursor.suffix fractional).2 := by
  have long : OnlyAscii fun char => char = 'L' || char = 'l' :=
    onlyAscii_eq_or_eq rfl rfl
  have float : OnlyAscii fun char => char = 'F' || char = 'f' :=
    onlyAscii_eq_or_eq rfl rfl
  have double : OnlyAscii fun char => char = 'D' || char = 'd' :=
    onlyAscii_eq_or_eq rfl rfl
  refine (ends_follows isPlace long).bind ?_
  unfold Cursor.suffix
  cases isNext : cursor.peek? with
  | none =>
      rw [Option.any_none, Bool.false_and, if_neg Bool.false_ne_true]
      have noFloat := ends_follows isPlace float
      have noDouble := ends_follows isPlace double
      rw [isNext] at noFloat noDouble
      exact noFloat.bind (noDouble.bind (ends_pure _ _ _))
  | some char =>
      have passes (value : NumericKind) {accepts : Char → Bool}
          (onlyAscii : OnlyAscii accepts) (accepted : accepts char) :
          Ends source (do advance 1; return value) cursor (.ok value)
            cursor.skip := by
        refine (ends_advance_one source onlyAscii ?_).bind (ends_pure _ _ _)
        rw [isNext]
        exact accepted
      have isFloat := ends_follows isPlace float
      have isDouble := ends_follows isPlace double
      rw [isNext] at isFloat isDouble
      dsimp only [Option.any_some] at isFloat isDouble ⊢
      split
      · rename_i isLong
        exact passes .long long ((Bool.and_eq_true _ _).mp isLong).1
      refine isFloat.bind ?_
      split
      · rename_i accepted
        exact passes .float float accepted
      refine isDouble.bind ?_
      split
      · rename_i accepted
        exact passes .double double accepted
      · exact ends_pure _ _ _

theorem agrees_endNumber (value : Number) :
    Agrees source (do endNumber; return value) cursor
      (Cursor.endNumber value cursor) := by
  have follows := ends_follows isPlace onlyAscii_isIdentifierPart
  unfold Cursor.endNumber
  cases runsOn : cursor.peek?.any isIdentifierPart with
  | true =>
      rw [runsOn] at follows
      have fails : Ends source endNumber cursor
          (.error (cursor.error .literalRunsOn)) cursor :=
        follows.bind ((ends_offset _ _).bind (ends_fail _ _ _))
      exact ⟨cursor, fails.bind_error⟩
  | false =>
      rw [runsOn] at follows
      have ends : Ends source endNumber cursor (.ok ()) cursor :=
        follows.bind (ends_pure _ _ _)
      exact ends.bind (ends_pure _ _ _)

/-- A literal ends with its value, if it is in range. -/
theorem agrees_orFault_endNumber (value? : Option Number) (start : Cursor) :
    Agrees source (do
        let value ← orFault value? start.offset .literalOutOfRange
        endNumber
        return value)
      cursor
      (match value? with
      | some value => Cursor.endNumber value cursor
      | none => .error (start.error .literalOutOfRange)) := by
  cases value? with
  | some value =>
      exact (ends_pure _ _ _).bind_agrees (agrees_endNumber isPlace value)
  | none =>
      exact ⟨cursor, (ends_fail _ _ _).bind_error⟩

theorem agrees_decimalNumber (negative : Bool) :
    Agrees source (decimalNumber negative) cursor
      (cursor.decimalNumber negative) := by
  have toWhole := ends_skipWhile isPlace onlyAscii_isDigit
  have isWhole := isPlace.trans toWhole.reaches
  have toFraction := ends_skipFraction isWhole
  have power := agrees_skipExponent (isWhole.trans toFraction.reaches)
  have numeralRead : cursor.numeral =
      cursor.digits.2.fraction.2.exponent.map fun read =>
        (⟨cursor.digits.1, cursor.digits.2.fraction.1, read.1⟩, read.2) := by
    rw [numeral]
    dsimp only
    cases cursor.digits.2.fraction.2.exponent <;> rfl
  refine (ends_offset _ _).bind_agrees ?_
  refine toWhole.bind_agrees (toFraction.bind_agrees ?_)
  have isSpan : cursor.digits = cursor.span isDigit := rfl
  rw [isSpan] at numeralRead
  rw [Cursor.decimalNumber]
  cases read : (cursor.span isDigit).2.fraction.2.exponent with
  | error error =>
      rw [read] at power numeralRead
      obtain ⟨stop, fails⟩ := power
      rw [numeralRead]
      exact ⟨stop, fails.bind_error⟩
  | ok found =>
      obtain ⟨exponent, after⟩ := found
      rw [read] at power numeralRead
      have toExponent : Ends source skipExponent _ (.ok exponent.isSome)
        after := power
      obtain ⟨text, split, offsetEq⟩ := reaches_numeral numeralRead
      have isAfter := isPlace.trans (reaches_numeral numeralRead)
      rw [numeralRead]
      refine toExponent.bind_agrees ((ends_offset _ _).bind_agrees ?_)
      refine (ends_cut isPlace after split offsetEq).bind_agrees ?_
      have toEnd := ends_suffix isAfter
        (!(cursor.span isDigit).2.fraction.1.isEmpty || exponent.isSome)
      refine toEnd.bind_agrees ?_
      rw [numeralOf?_of_numeral numeralRead split]
      exact agrees_orFault_endNumber (isAfter.trans toEnd.reaches) _ cursor

/-! ## Hexadecimal literals -/

theorem ends_longSuffix :
    Ends source longSuffix cursor (.ok cursor.longSuffix.1)
      cursor.longSuffix.2 := by
  unfold Cursor.longSuffix
  have upper := ends_eat isPlace 'L'
  have lower := ends_eat isPlace 'l'
  unfold eat? at upper lower
  by_cases isUpper : cursor.peek? = some 'L'
  · rw [if_pos isUpper] at upper
    rw [if_pos (.inl isUpper)]
    exact upper.bind (ends_pure _ _ _)
  rw [if_neg isUpper] at upper
  refine upper.bind ?_
  change Ends source (eat 'l') cursor _ _
  by_cases isLower : cursor.peek? = some 'l'
  · rw [if_pos isLower] at lower
    rw [if_pos (.inr isLower)]
    exact lower
  · rw [if_neg isLower] at lower
    rw [if_neg (not_or.2 ⟨isUpper, isLower⟩)]
    exact lower

omit isPlace in
theorem ends_advance_two (starts : cursor.startsHexadecimal) :
    Ends source (advance 2) cursor (.ok ()) cursor.skip.skip := by
  obtain ⟨mark, rest, isMark, restEq⟩ := startsHexadecimal_iff.1 starts
  refine ⟨(reaches_skip _).trans (reaches_skip _), ?_⟩
  obtain ⟨offset, text⟩ := cursor
  cases restEq
  rcases isMark with rfl | rfl <;> rfl

theorem agrees_hexadecimalNumber (negative : Bool)
    (starts : cursor.startsHexadecimal) :
    Agrees source (hexadecimalNumber negative) cursor
      (cursor.hexadecimalNumber negative) := by
  have toDigits : Ends source (advance 2) cursor (.ok ()) cursor.skip.skip :=
    ends_advance_two starts
  have isDigits := isPlace.trans toDigits.reaches
  have toEnd := ends_skipWhile isDigits onlyAscii_hexadecimalValue?
  have isEnd := isDigits.trans toEnd.reaches
  refine (ends_offset _ _).bind_agrees (toDigits.bind_agrees ?_)
  refine (ends_offset _ _).bind_agrees (toEnd.bind_agrees ?_)
  refine (ends_offset _ _).bind_agrees ?_
  refine (ends_cut isDigits _ (rest_span _ _) rfl).bind_agrees ?_
  unfold Cursor.hexadecimalNumber
  dsimp only
  split
  · exact ⟨_, ends_fail _ _ _⟩
  · have toSuffix := ends_longSuffix isEnd
    refine toSuffix.bind_agrees ?_
    exact agrees_orFault_endNumber (isEnd.trans toSuffix.reaches) _ cursor

/-! ## Literals of both forms -/

theorem agrees_number (negative : Bool) :
    Agrees source (number negative) cursor (cursor.number negative) := by
  have zero : OnlyAscii (· = '0') := onlyAscii_eq rfl
  have mark : OnlyAscii fun char => char = 'x' || char = 'X' :=
    onlyAscii_eq_or_eq rfl rfl
  obtain ⟨follow, ends, both⟩ := exists_ends_follows_one isPlace zero mark
  refine (ends_follows isPlace zero).bind_agrees (ends.bind_agrees ?_)
  have starts_eq : cursor.startsPair (· = '0')
      (fun char => char = 'x' || char = 'X') = cursor.startsHexadecimal := rfl
  rw [both, starts_eq]
  unfold Cursor.number
  split
  · rename_i starts
    exact agrees_hexadecimalNumber isPlace negative starts
  · exact agrees_decimalNumber isPlace negative

end Lexing

end Formula
