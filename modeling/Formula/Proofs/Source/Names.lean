import Formula.Proofs.Source.Bytes
import Formula.Proofs.Source.NumericLiteral
import Formula.Proofs.Source.Places
import Mathlib.Data.List.Chain

/-!
# Names in a source

Wherever a name stands in a source as a whole identifier, it is a lexeme there,
or it is inside a string literal. Letters stand in a number too, but never
without a letter or a digit before them.
-/

namespace Formula

open Cursor (isIdentifierStart isIdentifierPart isDigit isBlank)

/-! ## Names in a text -/

def IsIdentifier (name : List Char) : Prop :=
  ∃ first rest, name = first :: rest ∧ isIdentifierStart first ∧
    ∀ char ∈ rest, isIdentifierPart char

/-- A text between two others of a text that follows `last?` is no part of a
longer identifier. -/
structure Stands (name : List Char) (last? : Option Char)
    (text between after : List Char) : Prop where
  split : text = between ++ (name ++ after)
  unpreceded : ∀ char ∈ between.getLast?.or last?,
    isIdentifierPart char = false
  unfollowed : ∀ char ∈ after.head?, isIdentifierPart char = false

/-- A name stands at an offset of a source as a whole identifier. -/
def StandsAt (source name : String) (offset : Nat) : Prop :=
  ∃ between after, Stands name.toList none source.toList between after ∧
    utf8Length between = offset

theorem isIdentifierPart_of_start {char : Char}
    (isStart : isIdentifierStart char) : isIdentifierPart char :=
  (Bool.or_eq_true _ _).mpr (.inl isStart)

theorem isIdentifierStart_eq_false_of_part {char : Char}
    (noPart : isIdentifierPart char = false) :
    isIdentifierStart char = false :=
  (Bool.or_eq_false_iff.1 noPart).1

theorem isIdentifierPart_of_digit {char : Char} (digit : isDigit char) :
    isIdentifierPart char :=
  (Bool.or_eq_true _ _).mpr (.inr digit)

theorem isIdentifierPart_of_hexadecimal (char : Char)
    (digit : (hexadecimalValue? char).isSome) : isIdentifierPart char := by
  unfold hexadecimalValue? at digit
  split_ifs at digit with decimal lower upper
  · refine isIdentifierPart_of_digit ?_
    simp only [Cursor.isDigit, decimal.1, decimal.2, decide_true,
      Bool.and_true]
  · have last : 'f' ≤ 'z' := by decide
    have atMost := Char.le_trans lower.2 last
    refine isIdentifierPart_of_start ?_
    simp only [isIdentifierStart, lower.1, atMost, decide_true, Bool.and_true,
      Bool.true_or]
  · have last : 'F' ≤ 'Z' := by decide
    have atMost := Char.le_trans upper.2 last
    refine isIdentifierPart_of_start ?_
    simp only [isIdentifierStart, upper.1, atMost, decide_true, Bool.and_true,
      Bool.true_or, Bool.or_true]
  · cases digit

theorem IsIdentifier.isPart {name : List Char} (isName : IsIdentifier name) :
    ∀ char ∈ name, isIdentifierPart char := by
  obtain ⟨first, rest, rfl, isStart, isRest⟩ := isName
  intro char isMember
  rcases List.mem_cons.1 isMember with rfl | isLater
  · exact isIdentifierPart_of_start isStart
  · exact isRest char isLater

/-! ## Letters in numbers -/

/-- A letter stands in a text only behind a letter or a digit, unless it is the
first character, and a letter or a digit ends the text. -/
structure IsJoined (text : List Char) : Prop where
  chain : text.IsChain fun first second =>
    isIdentifierStart second → isIdentifierPart first
  last : ∀ char ∈ text.getLast?, isIdentifierPart char

theorem isJoined_nil : IsJoined [] :=
  ⟨.nil, nofun⟩

theorem IsJoined.append {first second : List Char} (isFirst : IsJoined first)
    (isSecond : IsJoined second) : IsJoined (first ++ second) := by
  refine ⟨List.isChain_append.2 ⟨isFirst.chain, isSecond.chain, ?_⟩, ?_⟩
  · intro last isLast next _ _
    exact isFirst.last last isLast
  · intro char isLast
    rw [List.getLast?_append] at isLast
    cases found : second.getLast? with
    | none =>
        rw [found] at isLast
        exact isFirst.last char isLast
    | some last =>
        rw [found] at isLast
        exact isSecond.last char (found.trans isLast)

theorem isJoined_of_isPart {text : List Char}
    (isPart : ∀ char ∈ text, isIdentifierPart char) : IsJoined text := by
  induction text with
  | nil =>
      exact isJoined_nil
  | cons char rest inductionHypothesis =>
      have isFirst : IsJoined [char] :=
        ⟨List.isChain_singleton _, fun last isLast =>
          isPart last (Option.some.inj isLast ▸ List.mem_cons_self)⟩
      exact isFirst.append (inductionHypothesis fun later isLater =>
        isPart later (List.mem_cons_of_mem _ isLater))

theorem IsJoined.cons {text : List Char} (joined : IsJoined text)
    (notEmpty : text ≠ [])
    (noLetter : ∀ char ∈ text.head?, isIdentifierStart char = false)
    (mark : Char) : IsJoined (mark :: text) := by
  obtain ⟨next, rest, rfl⟩ := List.exists_cons_of_ne_nil notEmpty
  refine ⟨List.isChain_cons_cons.2 ⟨?_, joined.chain⟩, joined.last⟩
  intro isStart
  rw [noLetter next rfl] at isStart
  cases isStart

theorem isIdentifierStart_eq_false_of_isDigit {char : Char}
    (digit : isDigit char) : isIdentifierStart char = false := by
  refine Bool.eq_false_iff.2 fun isStart => ?_
  rw [Cursor.isDigit_eq_false_of_isIdentifierStart isStart] at digit
  cases digit

theorem isIdentifierPart_eq_false_of_isBlank {char : Char}
    (blank : isBlank char) : isIdentifierPart char = false := by
  simp only [isBlank, Bool.or_eq_true, decide_eq_true_eq] at blank
  rcases blank with ((rfl | rfl) | rfl) | rfl <;> rfl

namespace Cursor

theorem exists_blanks (cursor : Cursor) :
    ∃ blanks, (∀ char ∈ blanks, isBlank char) ∧
      cursor.rest = blanks ++ cursor.skipBlanks.rest ∧
        cursor.skipBlanks.offset = cursor.offset + utf8Length blanks :=
  ⟨(cursor.span isBlank).1, fun _ => List.mem_takeWhile_imp,
    rest_span cursor isBlank, rfl⟩

/-- One cursor is reached from another over a joined text. -/
def Joins (before after : Cursor) : Prop :=
  ∃ text, before.rest = text ++ after.rest ∧ IsJoined text

theorem Joins.refl (cursor : Cursor) : cursor.Joins cursor :=
  ⟨[], rfl, isJoined_nil⟩

theorem Joins.trans {first second third : Cursor}
    (toSecond : first.Joins second) (toThird : second.Joins third) :
    first.Joins third := by
  obtain ⟨text, split, joined⟩ := toSecond
  obtain ⟨text', split', joined'⟩ := toThird
  exact ⟨text ++ text', by rw [split, split', List.append_assoc],
    joined.append joined'⟩

variable {cursor next : Cursor}

theorem joins_span (cursor : Cursor) {accepts : Char → Bool}
    (isPart : ∀ char, accepts char → isIdentifierPart char) :
    cursor.Joins (cursor.span accepts).2 := by
  obtain ⟨offset, text⟩ := cursor
  obtain ⟨run, rest, rfl, isRun, stops⟩ := exists_run accepts text
  rw [span_append offset isRun stops]
  exact ⟨run, rfl, isJoined_of_isPart fun char isMember =>
    isPart char (isRun char isMember)⟩

theorem rest_of_peek? {char : Char} (isNext : cursor.peek? = some char) :
    cursor.rest = [char] ++ cursor.skip.rest := by
  obtain ⟨offset, text⟩ := cursor
  obtain ⟨rest, rfl⟩ := List.head?_eq_some_iff.1 isNext
  rfl

theorem joins_skip {char : Char} (isNext : cursor.peek? = some char)
    (isPart : isIdentifierPart char) : cursor.Joins cursor.skip :=
  ⟨[char], rest_of_peek? isNext,
    isJoined_of_isPart (List.forall_mem_singleton.2 isPart)⟩

/-- Digits are joined, and no letter is the first of them. -/
theorem exists_joined_digits (hasDigits : cursor.digits.1 ≠ []) :
    ∃ digit digits, cursor.rest = (digit :: digits) ++ cursor.digits.2.rest ∧
      IsJoined (digit :: digits) ∧ isIdentifierStart digit = false := by
  obtain ⟨offset, text⟩ := cursor
  obtain ⟨run, rest, rfl, isRun, stops⟩ := exists_run isDigit text
  rw [digits_append offset isRun stops] at hasDigits ⊢
  obtain ⟨digit, digits, rfl⟩ := List.exists_cons_of_ne_nil hasDigits
  refine ⟨digit, digits, rfl, isJoined_of_isPart fun char isMember =>
    isIdentifierPart_of_digit (isRun char isMember), ?_⟩
  exact isIdentifierStart_eq_false_of_isDigit (isRun digit List.mem_cons_self)

theorem joins_fraction (cursor : Cursor) :
    cursor.Joins cursor.fraction.2 := by
  unfold fraction
  split
  · rename_i point first rest restEq
    split
    · rename_i accepted
      have skipped : cursor.skip.rest = first :: rest := by
        simp [skip, advance, restEq]
      have hasDigits : cursor.skip.digits.1 ≠ [] :=
        digits_ne_nil_iff.2
          ⟨first, rest, ((Bool.and_eq_true _ _).mp accepted).2, skipped⟩
      obtain ⟨digit, digits, split, joined, noLetter⟩ :=
        exists_joined_digits hasDigits
      refine ⟨point :: digit :: digits, ?_, joined.cons (by simp) ?_ point⟩
      · rw [restEq, ← skipped, split]
        rfl
      · rintro _ ⟨⟩
        exact noLetter
    · exact .refl cursor
  · exact .refl cursor

theorem joins_exponent {power : Option Int}
    (read : cursor.exponent = .ok (power, next)) : cursor.Joins next := by
  unfold exponent at read
  split at read
  · rename_i isMark
    obtain ⟨mark, rest, restEq⟩ : ∃ mark rest, cursor.rest = mark :: rest := by
      rcases isMark with lower | upper
      · exact ⟨'e', List.head?_eq_some_iff.1 lower⟩
      · exact ⟨'E', List.head?_eq_some_iff.1 upper⟩
    have skipped : cursor.skip.rest = rest := by
      simp [skip, advance, restEq]
    dsimp only at read
    split at read
    · cases read
    · rename_i notEmpty
      cases read
      obtain ⟨sign, isSign, afterMark⟩ := exists_rest_sign cursor.skip
      obtain ⟨digit, digits, split, joined, noLetter⟩ :=
        exists_joined_digits fun none => notEmpty (List.isEmpty_iff.2 none)
      obtain ⟨signed, signedStart⟩ : IsJoined (sign ++ digit :: digits) ∧
          ∀ char ∈ (sign ++ digit :: digits).head?,
            isIdentifierStart char = false := by
        simp only [List.mem_cons, List.not_mem_nil, or_false] at isSign
        rcases isSign with rfl | rfl | rfl
        · exact ⟨joined, by rintro _ ⟨⟩; exact noLetter⟩
        · exact ⟨joined.cons (by simp) (by rintro _ ⟨⟩; exact noLetter) '+',
            by rintro _ ⟨⟩; rfl⟩
        · exact ⟨joined.cons (by simp) (by rintro _ ⟨⟩; exact noLetter) '-',
            by rintro _ ⟨⟩; rfl⟩
      refine ⟨mark :: (sign ++ digit :: digits), ?_,
        signed.cons (by simp) signedStart mark⟩
      rw [restEq, ← skipped, afterMark, split]
      exact congrArg (mark :: ·) (List.append_assoc ..).symm
  · cases read
    exact .refl cursor

theorem joins_suffix (cursor : Cursor) (fractional : Bool) :
    cursor.Joins (cursor.suffix fractional).2 := by
  have skips {first second : Char} (isFirst : isIdentifierPart first)
      (isSecond : isIdentifierPart second) {char : Char}
      (isNext : cursor.peek? = some char)
      (isMark : char = first || char = second) : cursor.Joins cursor.skip := by
    rcases (Bool.or_eq_true _ _).mp isMark with same | same
    · exact joins_skip isNext (of_decide_eq_true same ▸ isFirst)
    · exact joins_skip isNext (of_decide_eq_true same ▸ isSecond)
  unfold suffix
  split
  · rename_i char isNext
    split
    · rename_i isLong
      exact skips (by decide) (by decide) isNext
        ((Bool.and_eq_true _ _).mp isLong).1
    split
    · rename_i isFloat
      exact skips (by decide) (by decide) isNext isFloat
    split
    · rename_i isDouble
      exact skips (by decide) (by decide) isNext isDouble
    · exact .refl cursor
  · exact .refl cursor

theorem joins_longSuffix (cursor : Cursor) :
    cursor.Joins cursor.longSuffix.2 := by
  unfold longSuffix
  split
  · rename_i isMark
    rcases isMark with upper | lower
    · exact joins_skip upper (by decide)
    · exact joins_skip lower (by decide)
  · exact .refl cursor

theorem joins_numeral {numeral : Numeral}
    (read : cursor.numeral = .ok (numeral, next)) : cursor.Joins next := by
  unfold Cursor.numeral at read
  dsimp only at read
  split at read
  · cases read
  · rename_i exponentRead
    cases read
    have toWhole : cursor.Joins cursor.digits.2 :=
      joins_span cursor fun char => isIdentifierPart_of_digit
    exact (toWhole.trans (joins_fraction _)).trans
      (joins_exponent exponentRead)

theorem joins_number {negative : Bool} {value : Number}
    (read : cursor.number negative = .ok (value, next)) :
    cursor.Joins next := by
  unfold number at read
  split at read
  · rename_i hexadecimal
    obtain ⟨mark, rest, isMark, restEq⟩ := startsHexadecimal_iff.1 hexadecimal
    have isZero : cursor.peek? = some '0' := by
      rw [peek?, restEq]
      rfl
    have toMark := joins_skip isZero (by decide)
    have afterMark : cursor.skip.peek? = some mark := by
      simp [peek?, skip, advance, restEq]
    have toDigits : cursor.skip.Joins cursor.skip.skip :=
      joins_skip afterMark (by rcases isMark with rfl | rfl <;> decide)
    have toEnd : cursor.skip.skip.Joins (cursor.skip.skip.span
        fun char => (hexadecimalValue? char).isSome).2 :=
      joins_span _ isIdentifierPart_of_hexadecimal
    unfold hexadecimalNumber at read
    dsimp only at read
    split at read
    · cases read
    · split at read
      · obtain ⟨_, rfl⟩ := endNumber_eq_ok read
        exact ((toMark.trans toDigits).trans toEnd).trans (joins_longSuffix _)
      · cases read
  · obtain ⟨numeral, middle, kind, numeralRead, taken, _⟩ :=
      decimalNumber_eq_ok_iff.1 read
    have toSuffix := joins_suffix middle numeral.isFractional
    rw [taken] at toSuffix
    exact (joins_numeral numeralRead).trans toSuffix

/-- Where a number begins, no whole identifier begins inside it. -/
theorem not_stands_in_number {negative : Bool} {value : Number}
    {between behind : List Char} {first : Char} (follows : cursor.startsNumber)
    (read : cursor.number negative = .ok (value, next))
    (within : cursor.rest = (between ++ first :: behind) ++ next.rest)
    (isStart : isIdentifierStart first)
    (unpreceded : ∀ char ∈ between.getLast?, isIdentifierPart char = false) :
    False := by
  obtain ⟨text, split, joined⟩ := joins_number read
  obtain rfl := List.append_cancel_right (split.symm.trans within)
  rcases List.eq_nil_or_concat between with rfl | ⟨front, last, rfl⟩
  · have isNext : cursor.peek? = some first := by
      rw [peek?, within]
      rfl
    refine not_startsNumber isNext
      (isDigit_eq_false_of_isIdentifierStart isStart) ?_ follows
    rintro rfl
    cases isStart
  · have chain := joined.chain
    rw [List.concat_eq_append] at unpreceded chain
    rw [List.append_assoc, List.singleton_append,
      List.isChain_append_cons_cons] at chain
    have isPart := chain.2.1 isStart
    rw [unpreceded last List.getLast?_concat] at isPart
    cases isPart

/-- A string literal stands between quotes. -/
theorem exists_quoted_of_string {text : String}
    (read : cursor.string = .ok (text, next)) :
    ∃ content, cursor.rest = '"' :: (content ++ '"' :: next.rest) := by
  have opened := peek?_of_string read
  obtain ⟨offset, written⟩ := cursor
  obtain ⟨rest, rfl⟩ := List.head?_eq_some_iff.1 opened
  rw [Cursor.string, if_pos opened] at read
  dsimp only at read
  split at read
  · cases read
  · rename_i content found
    obtain ⟨inner, behind, isContent, split⟩ := exists_of_contentFrom? found
    have isInside : rest = inner ++ '"' :: behind := split
    subst isInside
    split at read
    · cases read
      refine ⟨inner, ?_⟩
      simp [skip, advance, isContent]
    · cases read

theorem Munches.split {α : Type} {symbol : α → String} {operator : α}
    (munches : cursor.Munches symbol operator next) :
    cursor.rest = (symbol operator).toList ++ next.rest := by
  obtain ⟨begins, _, rfl⟩ := munches
  exact (List.prefix_iff_eq_append.1 begins).symm

end Cursor

/-! ## Names among lexemes -/

theorem UnaryOperator.isIdentifierPart_symbol (operator : UnaryOperator) :
    ∀ char ∈ operator.symbol.toList, isIdentifierPart char = false := by
  have letterless :
      operator.symbol.toList.all fun char => !isIdentifierPart char := by
    cases operator <;> decide
  intro char isMember
  simpa using List.all_eq_true.1 letterless char isMember

theorem BinaryOperator.isIdentifierPart_symbol (operator : BinaryOperator) :
    ∀ char ∈ operator.symbol.toList, isIdentifierPart char = false := by
  have letterless : ∀ operator ∈ BinaryOperator.all,
      operator.symbol.toList.all fun char => !isIdentifierPart char := by
    decide
  intro char isMember
  simpa using
    List.all_eq_true.1 (letterless operator operator.mem_all) char isMember

/-- One of the lexemes is a string literal of the source, and between its
quotes a name lies at an offset. -/
def LiesInString (source : String) (lexemes : List PlacedLexeme)
    (name : String) (offset : Nat) : Prop :=
  ∃ place next text, (Cursor.start source).Reaches place ∧
    place.string = .ok (text, next) ∧
      ⟨place.offset, .constant (.string text)⟩ ∈ lexemes ∧
        place.offset < offset ∧ offset + name.utf8ByteSize < next.offset

/-- One of the lexemes is a name at an offset, or has it between its quotes. -/
inductive Bears (source : String) (lexemes : List PlacedLexeme) (name : String)
    (offset : Nat) : Prop
  | word (isLexeme : ⟨offset, .word name⟩ ∈ lexemes)
  | memberName (isLexeme : ⟨offset, .memberName name⟩ ∈ lexemes)
  | string (lies : LiesInString source lexemes name offset)

theorem Bears.subset {source name : String} {offset : Nat}
    {lexemes others : List PlacedLexeme}
    (bears : Bears source lexemes name offset) (isSubset : lexemes ⊆ others) :
    Bears source others name offset := by
  cases bears with
  | word isLexeme =>
      exact .word (isSubset isLexeme)
  | memberName isLexeme =>
      exact .memberName (isSubset isLexeme)
  | string lies =>
      obtain ⟨place, next, text, isPlace, read, isLexeme, within⟩ := lies
      exact .string ⟨place, next, text, isPlace, read, isSubset isLexeme,
        within⟩

/-- A name in two joined texts begins in the first or stands in the second. -/
theorem Stands.begins_or_stands {name text rest between after : List Char}
    (stands : Stands name none (text ++ rest) between after)
    (isName : IsIdentifier name) :
    (∃ first behind, isIdentifierStart first ∧
      text = between ++ first :: behind) ∨
      ∃ beyond, between = text ++ beyond ∧
        Stands name none rest beyond after := by
  obtain ⟨initial, others, rfl, isStart, _⟩ := isName
  obtain ⟨split, unpreceded, unfollowed⟩ := stands
  rcases List.append_eq_append_iff.1 split with
    ⟨beyond, rfl, restEq⟩ | ⟨inside, rfl, nameEq⟩
  · refine .inr ⟨beyond, rfl, restEq, fun char isLast => ?_, unfollowed⟩
    refine unpreceded char ?_
    rw [Option.or_none] at isLast ⊢
    rw [List.getLast?_append, Option.mem_def.1 isLast]
    rfl
  · cases inside with
    | nil =>
        exact .inr ⟨[], by simp, nameEq.symm, nofun, unfollowed⟩
    | cons first behind =>
        obtain rfl : initial = first := (List.cons.inj nameEq).1
        exact .inl ⟨initial, behind, isStart, rfl⟩

/-- A name behind a cursor stands behind the blanks that follow the cursor. -/
theorem Stands.skipBlanks {cursor : Cursor} {name between after : List Char}
    (stands : Stands name none cursor.rest between after)
    (isName : IsIdentifier name) :
    ∃ beyond, Stands name none cursor.skipBlanks.rest beyond after ∧
      cursor.offset + utf8Length between =
        cursor.skipBlanks.offset + utf8Length beyond := by
  obtain ⟨blanks, isBlanks, split, offsetEq⟩ := cursor.exists_blanks
  rw [split] at stands
  rcases stands.begins_or_stands isName with
    ⟨first, behind, isStart, rfl⟩ | ⟨beyond, rfl, standsBeyond⟩
  · have blank := isBlanks first (by simp)
    rw [isIdentifierStart_eq_false_of_part
      (isIdentifierPart_eq_false_of_isBlank blank)] at isStart
    cases isStart
  · exact ⟨beyond, standsBeyond,
      by rw [offsetEq, utf8Length_append, Nat.add_assoc]⟩

section Lexemes

variable {source name : String} {start stop : Cursor} {lexeme : Lexeme}
  {between behind after : List Char} {first : Char}

theorem eq_of_identifier? {word : String}
    (read : start.identifier? = some (word, stop))
    (stands : Stands name.toList none start.rest between after)
    (isName : IsIdentifier name.toList)
    (within : start.rest = (between ++ first :: behind) ++ stop.rest) :
    between = [] ∧ word = name := by
  have taken : between ++ first :: behind =
      (start.span isIdentifierPart).1 ∧
        word = String.ofList (start.span isIdentifierPart).1 := by
    unfold Cursor.identifier? at read
    split at read
    · cases read
      have split := Cursor.rest_span start isIdentifierPart
      exact ⟨List.append_cancel_right (within.symm.trans split), rfl⟩
    · cases read
  obtain ⟨spanEq, rfl⟩ := taken
  have isPart : ∀ char ∈ between ++ first :: behind,
      isIdentifierPart char := by
    rw [spanEq]
    exact fun char => List.mem_takeWhile_imp
  rcases List.eq_nil_or_concat between with rfl | ⟨front, last, rfl⟩
  · refine ⟨rfl, ?_⟩
    obtain ⟨offset, text⟩ := start
    obtain rfl : text = name.toList ++ after := stands.split
    rw [Cursor.span_append offset isName.isPart stands.unfollowed]
    exact String.ofList_toList
  · rw [List.concat_eq_append] at isPart stands
    have refused := stands.unpreceded last
      (by rw [List.getLast?_concat]; rfl)
    rw [isPart last (by simp)] at refused
    cases refused

/-- A name that begins before a character that is no part of it ends before
this character. -/
theorem IsIdentifier.exists_append {name text rest after : List Char}
    (isName : IsIdentifier name) (split : name ++ after = text ++ rest)
    {stopper : Char} (isMember : stopper ∈ text)
    (noPart : isIdentifierPart stopper = false) :
    ∃ next others, text = name ++ next :: others := by
  have notInName : stopper ∉ name := fun inName => by
    rw [isName.isPart stopper inName] at noPart
    cases noPart
  rcases List.append_eq_append_iff.1 split with
    ⟨others, rfl, _⟩ | ⟨others, rfl, _⟩
  · cases others with
    | nil =>
        rw [List.append_nil] at isMember
        exact absurd isMember notInName
    | cons next others =>
        exact ⟨next, others, rfl⟩
  · exact absurd (List.mem_append_left _ isMember) notInName

theorem liesInString_of_string {text : String}
    (isPlace : (Cursor.start source).Reaches start)
    (read : start.string = .ok (text, stop))
    (stands : Stands name.toList none start.rest between after)
    (isName : IsIdentifier name.toList) (isStart : isIdentifierStart first)
    (within : start.rest = (between ++ first :: behind) ++ stop.rest) :
    LiesInString source [⟨start.offset, .constant (.string text)⟩] name
      (start.offset + utf8Length between) := by
  obtain ⟨content, quoted⟩ := Cursor.exists_quoted_of_string read
  have textEq : between ++ first :: behind = '"' :: (content ++ ['"']) := by
    refine List.append_cancel_right (within.symm.trans (quoted.trans ?_))
    simp
  have offsetEq : stop.offset =
      start.offset + utf8Length (between ++ first :: behind) := by
    obtain ⟨text, split, offsetEq⟩ := (Cursor.reaches_string read).1
    rw [offsetEq, List.append_cancel_right (split.symm.trans within)]
  have nameEq : name.toList ++ after = (first :: behind) ++ stop.rest := by
    refine List.append_cancel_left (stands.split.symm.trans (within.trans ?_))
    exact List.append_assoc ..
  have closing : '"' ∈ first :: behind := by
    have isLast : (between ++ first :: behind).getLast? = some '"' := by
      rw [textEq, ← List.cons_append]
      exact List.getLast?_concat
    rw [List.getLast?_append_of_ne_nil _ (List.cons_ne_nil _ _)] at isLast
    exact List.mem_of_getLast? isLast
  obtain ⟨next, others, remains⟩ :=
    isName.exists_append nameEq closing (by decide)
  refine ⟨start, stop, text, isPlace, read, List.mem_cons_self, ?_, ?_⟩
  · cases between with
    | nil =>
        obtain ⟨rfl, _⟩ := List.cons.inj textEq
        cases isStart
    | cons char between =>
        have filled := char.utf8Size_pos
        rw [utf8Length_cons]
        omega
  · have filled := next.utf8Size_pos
    have width : name.utf8ByteSize = utf8Length name.toList := by
      rw [← utf8ByteSize_ofList, String.ofList_toList]
    rw [offsetEq, utf8Length_append, remains, utf8Length_append,
      utf8Length_cons, width]
    omega

/-- Where a name begins within a lexeme, the lexeme bears it. -/
theorem Reads.bears {expectation : Expectation}
    (reads : Reads expectation start lexeme stop)
    (isPlace : (Cursor.start source).Reaches start)
    (stands : Stands name.toList none start.rest between after)
    (isName : IsIdentifier name.toList) (isStart : isIdentifierStart first)
    (within : start.rest = (between ++ first :: behind) ++ stop.rest) :
    Bears source [⟨start.offset, lexeme⟩] name
      (start.offset + utf8Length between) := by
  have unpreceded : ∀ char ∈ between.getLast?,
      isIdentifierPart char = false := fun char isLast =>
    stands.unpreceded char (by rw [Option.or_none]; exact isLast)
  have noLetter {text : List Char} (split : start.rest = text ++ stop.rest)
      (letterless : ∀ char ∈ text, isIdentifierPart char = false) :
      False := by
    obtain rfl := List.append_cancel_right (split.symm.trans within)
    rw [isIdentifierStart_eq_false_of_part (letterless first (by simp))]
      at isStart
    cases isStart
  cases reads with
  | number follows read =>
      exact (Cursor.not_stands_in_number follows read within isStart
        unpreceded).elim
  | negativeNumber sign follows read =>
      have behindSign := sign.split
      cases between with
      | nil =>
          obtain ⟨rfl, _⟩ := List.cons.inj (behindSign.symm.trans within)
          cases isStart
      | cons char between =>
          obtain ⟨rfl, inNumber⟩ :=
            List.cons.inj (behindSign.symm.trans within)
          refine (Cursor.not_stands_in_number follows read inNumber isStart
            fun last isLast => unpreceded last ?_).elim
          rw [List.getLast?_cons, Option.mem_def.1 isLast]
          rfl
  | string read =>
      exact .string
        (liesInString_of_string isPlace read stands isName isStart within)
  | word read =>
      obtain ⟨rfl, rfl⟩ := eq_of_identifier? read stands isName within
      exact .word List.mem_cons_self
  | memberName read =>
      obtain ⟨rfl, rfl⟩ := eq_of_identifier? read stands isName within
      exact .memberName List.mem_cons_self
  | opening read | closing read =>
      obtain ⟨isNext, rfl⟩ := Cursor.eat?_eq_some_iff.1 read
      exact (noLetter (Cursor.rest_of_peek? isNext)
        (List.forall_mem_singleton.2 rfl)).elim
  | @unary _ _ operator sign =>
      exact (noLetter sign.split operator.isIdentifierPart_symbol).elim
  | @binary _ _ operator symbol =>
      exact (noLetter symbol.split operator.isIdentifierPart_symbol).elim

/-- A name that stands behind the beginning of a chain of lexemes is borne by
one of them, or stands behind the chain. -/
theorem Lexes.bears_or_stands {expectation last : Expectation}
    {lexemes : List PlacedLexeme}
    (lexes : Lexes expectation start lexemes last stop)
    (isPlace : (Cursor.start source).Reaches start)
    (isName : IsIdentifier name.toList)
    (stands : Stands name.toList none start.rest between after) :
    Bears source lexemes name (start.offset + utf8Length between) ∨
      ∃ beyond, Stands name.toList none stop.rest beyond after := by
  induction lexes generalizing between with
  | done =>
      exact .inr ⟨between, stands⟩
  | @next _ _ start middle _ lexeme rest reads _ inductionHypothesis =>
      obtain ⟨inPlace, standsInPlace, place⟩ := stands.skipBlanks isName
      obtain ⟨text, split, offsetEq⟩ := reads.reaches
      rw [split] at standsInPlace
      have isLexeme := isPlace.trans start.reaches_skipBlanks
      rw [place]
      rcases standsInPlace.begins_or_stands isName with
        ⟨first, behind, isStart, rfl⟩ | ⟨beyond, rfl, standsBeyond⟩
      · rw [← split] at standsInPlace
        refine .inl ((reads.bears isLexeme standsInPlace isName isStart
          split).subset ?_)
        exact List.cons_subset_cons _ (List.nil_subset _)
      · have behindLexeme : start.skipBlanks.offset +
            utf8Length (text ++ beyond) =
              middle.offset + utf8Length beyond := by
          rw [offsetEq, utf8Length_append, Nat.add_assoc]
        rw [behindLexeme]
        exact (inductionHypothesis (isLexeme.trans reads.reaches)
          standsBeyond).imp_left (·.subset (List.subset_cons_self _ _))

end Lexemes

/-- In a source without an error in its lexemes, every whole identifier is a
lexeme or inside a string literal. -/
theorem StandsAt.bears {source name : String} {offset : Nat}
    (stands : StandsAt source name offset) (isName : IsIdentifier name.toList)
    (complete : (LexemeList.ofSource source).error? = none) :
    Bears source (LexemeList.ofSource source).lexemes name offset := by
  obtain ⟨between, after, stands, rfl⟩ := stands
  obtain ⟨last, stop, lexes, ended⟩ := LexemeList.exists_lexes_ofSource source
  rcases lexes.bears_or_stands (.refl _) isName stands with
    bears | ⟨beyond, standsBeyond⟩
  · have place : (Cursor.start source).offset + utf8Length between =
        utf8Length between := Nat.zero_add _
    rw [place] at bears
    exact bears
  · obtain ⟨_, standsInNone, _⟩ := standsBeyond.skipBlanks isName
    obtain ⟨_, _, nameEq, _⟩ := isName
    have split := standsInNone.split
    rw [List.isEmpty_iff.1 (ended complete).2, nameEq] at split
    simp at split

/-! ## Lexemes that are names -/

/-- A cursor is at a place of a source behind which no identifier goes on. -/
structure Cursor.IsFree (source : String) (cursor : Cursor) : Prop where
  isPlace : (Cursor.start source).Reaches cursor
  unpreceded : ∀ before, source.toList = before ++ cursor.rest →
    ∀ char ∈ before.getLast?, isIdentifierPart char = false

section Words

variable {source : String} {cursor next : Cursor} {text : List Char}

theorem Cursor.isFree_of_append (isPlace : (Cursor.start source).Reaches cursor)
    (reached : cursor.Reaches next) (split : cursor.rest = text ++ next.rest)
    (notEmpty : text ≠ [])
    (noPart : ∀ char ∈ text, isIdentifierPart char = false) :
    next.IsFree source := by
  refine ⟨isPlace.trans reached, fun before beforeEq char isLast => ?_⟩
  obtain ⟨initial, initialEq, _⟩ := isPlace
  have initialEq : source.toList = initial ++ cursor.rest := initialEq
  rw [initialEq, split, ← List.append_assoc] at beforeEq
  rw [← List.append_cancel_right beforeEq,
    List.getLast?_append_of_ne_nil _ notEmpty] at isLast
  exact noPart char (List.mem_of_getLast? isLast)

theorem Cursor.IsFree.skipBlanks (free : cursor.IsFree source) :
    cursor.skipBlanks.IsFree source := by
  obtain ⟨blanks, isBlanks, split, _⟩ := cursor.exists_blanks
  by_cases none : blanks = []
  · have same : cursor.rest = cursor.skipBlanks.rest := by
      rw [none] at split
      exact split
    refine ⟨free.isPlace.trans cursor.reaches_skipBlanks, ?_⟩
    rw [← same]
    exact free.unpreceded
  · exact isFree_of_append free.isPlace cursor.reaches_skipBlanks split none
      fun char isMember =>
        isIdentifierPart_eq_false_of_isBlank (isBlanks char isMember)

theorem standsAt_of_identifier? {name : String} (free : cursor.IsFree source)
    (read : cursor.identifier? = some (name, next)) :
    StandsAt source name cursor.offset := by
  unfold Cursor.identifier? at read
  split at read
  · cases read
    obtain ⟨before, split, offsetEq⟩ := free.isPlace
    have split : source.toList = before ++ cursor.rest := split
    refine ⟨before, (cursor.span isIdentifierPart).2.rest, ⟨?_, ?_, ?_⟩,
      (offsetEq.trans (Nat.zero_add _)).symm⟩
    · rw [String.toList_ofList, split]
      exact congrArg (before ++ ·) (cursor.rest_span isIdentifierPart)
    · intro char isLast
      rw [Option.or_none] at isLast
      exact free.unpreceded before split char isLast
    · obtain ⟨offset, text⟩ := cursor
      obtain ⟨run, rest, rfl, isRun, stops⟩ :=
        Cursor.exists_run isIdentifierPart text
      rw [Cursor.span_append offset isRun stops]
      exact stops
  · cases read

theorem Reads.isFree {expectation : Expectation} {lexeme : Lexeme}
    (reads : Reads expectation cursor lexeme next)
    (isPlace : (Cursor.start source).Reaches cursor)
    (goesOn : lexeme.next ≠ .operator) : next.IsFree source := by
  have reached := reads.reaches
  cases reads with
  | number | negativeNumber | string | word | closing | memberName =>
      exact absurd rfl goesOn
  | opening read =>
      obtain ⟨isNext, rfl⟩ := Cursor.eat?_eq_some_iff.1 read
      exact Cursor.isFree_of_append isPlace reached
        (Cursor.rest_of_peek? isNext) (List.cons_ne_nil _ _)
        (List.forall_mem_singleton.2 rfl)
  | @unary _ _ operator sign =>
      exact Cursor.isFree_of_append isPlace reached sign.split
        (OperatorTable.lists_unary.nonempty operator)
        operator.isIdentifierPart_symbol
  | @binary _ _ operator symbol =>
      exact Cursor.isFree_of_append isPlace reached symbol.split
        (OperatorTable.lists_binary.nonempty operator)
        operator.isIdentifierPart_symbol

/-- Every word among lexemes stands where it is as a whole identifier. -/
theorem Lexes.standsAt_of_word {expectation last : Expectation}
    {lexemes : List PlacedLexeme}
    (lexes : Lexes expectation cursor lexemes last next)
    (isPlace : (Cursor.start source).Reaches cursor)
    (free : expectation ≠ .operator → cursor.IsFree source) :
    ∀ offset name, ⟨offset, .word name⟩ ∈ lexemes →
      StandsAt source name offset := by
  induction lexes with
  | done =>
      intro offset name isWord
      cases isWord
  | @next expectation _ start middle _ lexeme rest reads _
      inductionHypothesis =>
      intro offset name isWord
      have isLexeme := isPlace.trans start.reaches_skipBlanks
      rcases List.mem_cons.1 isWord with same | isLater
      · cases same
        cases reads with
        | word read =>
            have expected : Expectation.operand ≠ .operator := by
              decide
            exact standsAt_of_identifier? (free expected).skipBlanks read
      · exact inductionHypothesis (isLexeme.trans reads.reaches)
          (reads.isFree isLexeme) offset name isLater

end Words

theorem standsAt_of_word {source name : String} {offset : Nat}
    (isWord : ⟨offset, .word name⟩ ∈ (LexemeList.ofSource source).lexemes) :
    StandsAt source name offset := by
  obtain ⟨last, stop, lexes, _⟩ := LexemeList.exists_lexes_ofSource source
  refine lexes.standsAt_of_word (.refl _) (fun _ => ⟨.refl _, ?_⟩) _ _ isWord
  intro before beforeEq
  obtain rfl := List.self_eq_append_left.1 beforeEq
  exact nofun

end Formula
