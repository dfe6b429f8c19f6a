import Formula.Proofs.Source.Bytes
import Formula.Proofs.Source.Places
import Formula.Source.Lexer

/-!
# Reading by offsets

A lexer that stands at a place of its source does what a cursor does there: it
leaves the same value at the place behind it, or the same error at some place
that it has reached.
-/

namespace Formula

variable {source : String} {cursor : Cursor}

/-! ## Places by their bytes -/

namespace Cursor

theorem dropBytes?_of_reaches (isPlace : (start source).Reaches cursor) :
    dropBytes? cursor.offset source.toList = some cursor.rest := by
  obtain ⟨before, split, offsetEq⟩ := isPlace
  refine dropBytes?_eq_some_iff.2 ⟨before, split, ?_⟩
  exact (offsetEq.trans (Nat.zero_add _)).symm

/-- The bytes behind a place are those of the text that follows. -/
theorem drop_bytes_of_reaches (isPlace : (start source).Reaches cursor) :
    source.toByteArray.data.toList.drop cursor.offset =
      utf8Bytes cursor.rest := by
  obtain ⟨before, split, offsetEq⟩ := isPlace
  have width : (utf8Bytes before).length = cursor.offset := by
    rw [length_utf8Bytes, offsetEq]
    exact (Nat.zero_add _).symm
  have split : source.toList = before ++ cursor.rest := split
  rw [toByteArray_eq_utf8Bytes, split, utf8Bytes_append, ← width,
    List.drop_left]

theorem getElem?_bytes_of_reaches (isPlace : (start source).Reaches cursor)
    (ahead : Nat) :
    source.toByteArray.data[cursor.offset + ahead]? =
      (utf8Bytes cursor.rest)[ahead]? := by
  rw [← drop_bytes_of_reaches isPlace, List.getElem?_drop,
    Array.getElem?_toList]

theorem reaches_skip_of_peek? {char : Char}
    (isNext : cursor.peek? = some char) :
    ∃ rest, cursor.rest = char :: rest ∧
      cursor.skip = ⟨cursor.offset + char.utf8Size, rest⟩ := by
  obtain ⟨offset, text⟩ := cursor
  obtain ⟨rest, rfl⟩ := List.head?_eq_some_iff.1 isNext
  exact ⟨rest, rfl, rfl⟩

end Cursor

/-! ## Accepted characters -/

theorem utf8Size_eq_one_of_le {char last : Char} (atMost : char ≤ last)
    (isAscii : last.val ≤ 127) : char.utf8Size = 1 :=
  Char.utf8Size_eq_one_iff.2 (UInt32.le_trans atMost isAscii)

namespace Cursor

theorem onlyAscii_isBlank : OnlyAscii isBlank := by
  intro char isBlank
  simp only [Cursor.isBlank, Bool.or_eq_true, decide_eq_true_eq] at isBlank
  rcases isBlank with ((rfl | rfl) | rfl) | rfl <;> rfl

theorem onlyAscii_isDigit : OnlyAscii isDigit := by
  intro char isDigit
  simp only [Cursor.isDigit, Bool.and_eq_true, decide_eq_true_eq] at isDigit
  exact utf8Size_eq_one_of_le isDigit.2 (by decide)

theorem onlyAscii_isIdentifierStart : OnlyAscii isIdentifierStart := by
  intro char isStart
  simp only [isIdentifierStart, Bool.or_eq_true, Bool.and_eq_true,
    decide_eq_true_eq] at isStart
  rcases isStart with ((lower | upper) | rfl) | rfl
  · exact utf8Size_eq_one_of_le lower.2 (by decide)
  · exact utf8Size_eq_one_of_le upper.2 (by decide)
  · rfl
  · rfl

theorem onlyAscii_isIdentifierPart : OnlyAscii isIdentifierPart := by
  intro char isPart
  rcases (Bool.or_eq_true _ _).mp isPart with isStart | isDigit
  · exact onlyAscii_isIdentifierStart char isStart
  · exact onlyAscii_isDigit char isDigit

/-- Whether two accepted characters follow. -/
def startsPair (cursor : Cursor) (first second : Char → Bool) : Bool :=
  match cursor.rest with
  | char :: next :: _ => first char && second next
  | _ => false

def orStay {α : Type} (cursor : Cursor) (found? : Option (α × Cursor)) :
    Option α × Cursor :=
  match found? with
  | some (value, next) => (some value, next)
  | none => (none, cursor)

theorem advance_cons (offset : Nat) (char : Char) (rest text : List Char) :
    (Cursor.mk (offset + char.utf8Size) rest).advance text =
      (Cursor.mk offset (char :: rest)).advance (char :: text) := by
  simp [advance, Nat.add_assoc]

end Cursor

/-! ## Outcomes of readings -/

namespace Lexing

open Cursor

variable {α β : Type}

/-- A reading from a cursor leaves an outcome, at a place that is reached. -/
structure Ends (source : String) (reading : Lexing α) (cursor : Cursor)
    (outcome : Except Error α) (stop : Cursor) : Prop where
  reaches : cursor.Reaches stop
  leaves : reading source cursor.offset = some (outcome, stop.offset)

/-- A reading leaves the value that a cursor reads, at the place behind it, or
the error that the cursor reports. -/
def Agrees (source : String) (reading : Lexing α) (cursor : Cursor) :
    Except Error (α × Cursor) → Prop
  | .ok (value, next) => Ends source reading cursor (.ok value) next
  | .error error => ∃ stop, Ends source reading cursor (.error error) stop

section Chains

variable {first : Lexing α} {next : α → Lexing β} {value : α}
  {middle stop : Cursor} {outcome : Except Error β} {error : Error}

theorem Ends.bind (ends : Ends source first cursor (.ok value) middle)
    (goesOn : Ends source (next value) middle outcome stop) :
    Ends source (first >>= next) cursor outcome stop := by
  refine ⟨ends.reaches.trans goesOn.reaches, ?_⟩
  change andThen first next source cursor.offset = _
  rw [andThen, ends.leaves]
  exact goesOn.leaves

theorem Ends.bind_error (ends : Ends source first cursor (.error error) stop) :
    Ends source (first >>= next) cursor (.error error) stop := by
  refine ⟨ends.reaches, ?_⟩
  change andThen first next source cursor.offset = _
  rw [andThen, ends.leaves]

theorem Ends.bind_agrees {result : Except Error (β × Cursor)}
    (ends : Ends source first cursor (.ok value) middle)
    (agrees : Agrees source (next value) middle result) :
    Agrees source (first >>= next) cursor result := by
  cases result with
  | ok read =>
      exact ends.bind agrees
  | error error =>
      obtain ⟨stop, fails⟩ := agrees
      exact ⟨stop, ends.bind fails⟩

end Chains

theorem ends_pure (source : String) (cursor : Cursor) (value : α) :
    Ends source (pure value) cursor (.ok value) cursor :=
  ⟨.refl cursor, rfl⟩

theorem ends_fail (source : String) (cursor : Cursor) (error : Error) :
    Ends source (fail error : Lexing α) cursor (.error error) cursor :=
  ⟨.refl cursor, rfl⟩

theorem ends_offset (source : String) (cursor : Cursor) :
    Ends source offset cursor (.ok cursor.offset) cursor :=
  ⟨.refl cursor, rfl⟩

theorem ends_advance (source : String) {char : Char}
    (isNext : cursor.peek? = some char) :
    Ends source (advance char.utf8Size) cursor (.ok ()) cursor.skip := by
  obtain ⟨rest, _, skipped⟩ := Cursor.reaches_skip_of_peek? isNext
  refine ⟨Cursor.reaches_skip cursor, ?_⟩
  rw [skipped]
  rfl

theorem ends_advance_one (source : String) {accepts : Char → Bool}
    (onlyAscii : OnlyAscii accepts) (accepted : cursor.peek?.any accepts) :
    Ends source (advance 1) cursor (.ok ()) cursor.skip := by
  obtain ⟨char, isNext, isAccepted⟩ := (Option.any_eq_true _ _).1 accepted
  have ends := ends_advance source isNext
  rwa [onlyAscii char isAccepted] at ends

variable (isPlace : (Cursor.start source).Reaches cursor)
include isPlace

theorem ends_cut {stop : Cursor} {text : List Char} (other : Cursor)
    (restEq : cursor.rest = text ++ stop.rest)
    (offsetEq : stop.offset = cursor.offset + utf8Length text) :
    Ends source (cut cursor.offset stop.offset) other (.ok text) other := by
  refine ⟨.refl other, ?_⟩
  have ordered : cursor.offset ≤ stop.offset := by
    omega
  have width : stop.offset - cursor.offset = utf8Length text := by
    omega
  rw [cut, if_pos ordered, Cursor.dropBytes?_of_reaches isPlace,
    Option.bind_some, width, restEq, takeBytes?_utf8Length]

/-! ## Tests of bytes -/

theorem ends_follows {accepts : Char → Bool} (onlyAscii : OnlyAscii accepts) :
    Ends source (follows 0 accepts) cursor (.ok (cursor.peek?.any accepts))
      cursor := by
  refine ⟨.refl cursor, ?_⟩
  have byte := Cursor.getElem?_bytes_of_reaches isPlace 0
  rw [follows, byte, ← List.head?_eq_getElem?,
    onlyAscii.any_head?_utf8Bytes]
  rfl

theorem ends_skipWhile {accepts : Char → Bool}
    (onlyAscii : OnlyAscii accepts) :
    Ends source (skipWhile accepts) cursor (.ok ())
      (cursor.span accepts).2 := by
  refine ⟨Cursor.reaches_span cursor accepts, ?_⟩
  rw [skipWhile, Cursor.drop_bytes_of_reaches isPlace,
    onlyAscii.length_takeWhile_utf8Bytes]
  rfl

/-- Where the next character is accepted first, the second test is that of the
character behind it. -/
theorem exists_ends_follows_one {first second : Char → Bool}
    (firstAscii : OnlyAscii first) (secondAscii : OnlyAscii second) :
    ∃ follow, Ends source (follows 1 second) cursor (.ok follow) cursor ∧
      (cursor.peek?.any first && follow) =
        cursor.startsPair first second := by
  have byte := Cursor.getElem?_bytes_of_reaches isPlace 1
  refine ⟨_, ⟨.refl cursor, rfl⟩, ?_⟩
  rw [byte]
  obtain ⟨offset, text⟩ := cursor
  cases text with
  | nil =>
      rfl
  | cons char rest =>
      by_cases accepted : first char
      · obtain ⟨_, encoded, _⟩ :=
          exists_utf8EncodeChar_eq (firstAscii char accepted)
        rw [utf8Bytes_cons, encoded, List.singleton_append,
          List.getElem?_cons_succ, ← List.head?_eq_getElem?,
          secondAscii.any_head?_utf8Bytes]
        cases rest with
        | nil =>
            exact Bool.and_false _
        | cons next others =>
            rfl
      · have refused : first char = false := Bool.eq_false_iff.2 accepted
        cases rest <;> simp [Cursor.peek?, Cursor.startsPair, refused]

/-! ## Single characters -/

theorem ends_peek : Ends source peek cursor (.ok cursor.peek?) cursor := by
  refine ⟨.refl cursor, ?_⟩
  rw [peek, Cursor.dropBytes?_of_reaches isPlace]
  rfl

theorem ends_eat (char : Char) :
    Ends source (eat char) cursor (.ok (cursor.eat? char).isSome)
      ((cursor.eat? char).getD cursor) := by
  refine (ends_peek isPlace).bind ?_
  unfold Cursor.eat?
  split
  · rename_i isNext
    exact (ends_advance source isNext).bind (ends_pure _ _ _)
  · exact ends_pure _ _ _

theorem ends_unexpected (expected : String) :
    Ends source (unexpected expected) cursor
      (.ok (cursor.unexpected expected)) cursor :=
  (ends_peek isPlace).bind ((ends_offset _ _).bind (ends_pure _ _ _))

theorem ends_skipBlanks :
    Ends source skipBlanks cursor (.ok ()) cursor.skipBlanks :=
  ends_skipWhile isPlace onlyAscii_isBlank

/-! ## Identifiers -/

theorem agrees_identifier :
    Agrees source identifier cursor
      (.ok (cursor.orStay cursor.identifier?)) := by
  refine (ends_follows isPlace onlyAscii_isIdentifierStart).bind ?_
  unfold Cursor.identifier? Cursor.startsIdentifier
  split
  · have reached := cursor.reaches_span Cursor.isIdentifierPart
    refine (ends_offset _ _).bind ?_
    refine (ends_skipWhile isPlace onlyAscii_isIdentifierPart).bind ?_
    refine (ends_offset _ _).bind ?_
    refine (ends_cut isPlace _ ?_ rfl).bind (ends_pure _ _ _)
    exact Cursor.rest_span cursor Cursor.isIdentifierPart
  · exact ends_pure _ _ _

/-! ## Operators -/

omit isPlace in
theorem munchFrom_of_dropBytes? {state : OperatorMatch α} {offset : Nat}
    {text : List Char} (follows : dropBytes? offset source.toList = some text) :
    munchFrom source state offset =
      match text with
      | [] => some (state, offset)
      | char :: _ =>
          if state.hasNext char then
            munchFrom source (state.consume char) (offset + char.utf8Size)
          else some (state, offset) := by
  rw [munchFrom]
  split <;> rename_i found <;> cases found.symm.trans follows <;> rfl

/-- Reading on while some operator continues passes over the text that the
longest match consumes. -/
theorem exists_munchFrom_eq (state : OperatorMatch α) :
    ∃ text, text <+: cursor.rest ∧
      (longestMatch state cursor.rest).consumed =
          state.consumed + text.length ∧
        munchFrom source state cursor.offset =
          some (longestMatch state cursor.rest,
            cursor.offset + utf8Length text) := by
  obtain ⟨offset, text⟩ := cursor
  induction text generalizing state offset with
  | nil =>
      refine ⟨[], List.prefix_refl _, rfl, ?_⟩
      exact munchFrom_of_dropBytes? (dropBytes?_of_reaches isPlace)
  | cons char rest inductionHypothesis =>
      have isNext : (Cursor.mk offset (char :: rest)).Reaches
          ⟨offset + char.utf8Size, rest⟩ := reaches_skip _
      obtain ⟨text, isPrefix, consumed, munched⟩ :=
        inductionHypothesis (state.consume char) _ (isPlace.trans isNext)
      rw [munchFrom_of_dropBytes? (dropBytes?_of_reaches isPlace)]
      dsimp only
      rw [longestMatch]
      split
      · refine ⟨char :: text, List.cons_prefix_cons.2 ⟨rfl, isPrefix⟩, ?_, ?_⟩
        · rw [consumed, List.length_cons, OperatorMatch.consume]
          dsimp only
          omega
        · rw [munched, utf8Length_cons, Nat.add_assoc]
      · exact ⟨[], List.nil_prefix, rfl, rfl⟩

omit isPlace in
theorem ends_munch {state final : OperatorMatch α} {text : List Char}
    (isPrefix : text <+: cursor.rest)
    (munched : munchFrom source state cursor.offset =
      some (final, cursor.offset + utf8Length text)) :
    Ends source (munch state) cursor (.ok final) (cursor.advance text) := by
  refine ⟨reaches_advance isPrefix, ?_⟩
  rw [munch, munched]
  rfl

theorem agrees_operator (table : OperatorTable α) :
    Agrees source (operator table) cursor
      ((cursor.operator? table).map cursor.orStay) := by
  refine (ends_offset _ _).bind_agrees ((ends_peek isPlace).bind_agrees ?_)
  obtain ⟨offset, text⟩ := cursor
  cases text with
  | nil =>
      exact ends_pure _ _ _
  | cons first rest =>
      unfold operator?
      dsimp only [peek?, List.head?_cons]
      split
      · cases started : table.start? first with
        | none =>
            exact ⟨_, ends_fail _ _ _⟩
        | some state =>
            have toNext : (Cursor.mk offset (first :: rest)).Reaches
                ⟨offset + first.utf8Size, rest⟩ := reaches_skip _
            obtain ⟨text, isPrefix, consumed, munched⟩ :=
              exists_munchFrom_eq (isPlace.trans toNext) state
            have begins : first :: text <+: first :: rest :=
              List.cons_prefix_cons.2 ⟨rfl, isPrefix⟩
            have taken : (first :: rest).take
                (longestMatch state rest).consumed = first :: text := by
              have width : (longestMatch state rest).consumed =
                  (first :: text).length := by
                rw [List.length_cons, Nat.add_comm,
                  ← OperatorTable.consumed_of_start? started]
                exact consumed
              rw [width]
              exact (List.prefix_iff_eq_take.1 begins).symm
            have ends := ends_munch isPrefix munched
            rw [advance_cons] at ends
            dsimp only at ends ⊢
            rw [taken]
            refine (ends_advance source rfl).bind_agrees (ends.bind_agrees ?_)
            cases (longestMatch state rest).complete? with
            | some operator =>
                exact ends_pure _ _ _
            | none =>
                refine ⟨_, (ends_offset _ _).bind
                  ((ends_cut isPlace _ ?_ rfl).bind (ends_fail _ _ _))⟩
                exact (List.prefix_iff_eq_append.1 begins).symm
      · exact ends_pure _ _ _

/-! ## Strings -/

theorem closeFrom_of_reaches :
    closeFrom source cursor.offset =
      match cursor.rest with
      | [] => some (false, cursor.offset)
      | char :: rest =>
          let behind := cursor.offset + char.utf8Size
          if char = '\n' then some (false, behind)
          else if char = '"' then some (true, behind)
          else if char = '\\' then
            closeFrom source (behind + utf8Length (rest.take 1))
          else closeFrom source behind := by
  have follows := dropBytes?_of_reaches isPlace
  obtain ⟨offset, text⟩ := cursor
  rw [closeFrom]
  split <;> rename_i found <;> cases found.symm.trans follows
  · rfl
  · rename_i char rest
    have toNext : (Cursor.mk offset (char :: rest)).Reaches
        ⟨offset + char.utf8Size, rest⟩ := reaches_skip _
    have nextFollows : dropBytes? (offset + char.utf8Size) source.toList =
        some rest := dropBytes?_of_reaches (isPlace.trans toNext)
    refine if_congr .rfl rfl (if_congr .rfl rfl (if_congr .rfl ?_ rfl))
    split <;> rename_i found <;> cases found.symm.trans nextFollows <;> rfl

/-- Reading on to the quote that closes a literal does what the search for the
content does that has read some of it before. -/
def Closes (source : String) (read : List Char) (cursor : Cursor) :
    Option (List Char) → Prop
  | some content =>
      ∃ inner rest, content = read.reverse ++ inner ∧
        cursor.rest = inner ++ '"' :: rest ∧
          closeFrom source cursor.offset =
            some (true, cursor.offset + utf8Length inner + 1)
  | none =>
      ∃ stop, cursor.Reaches stop ∧
        closeFrom source cursor.offset = some (false, stop.offset)

omit isPlace in
theorem Closes.of_append (first : List Char) {rest read : List Char}
    {offset : Nat} {content? : Option (List Char)}
    (later : Closes source (first.reverse ++ read)
      ⟨offset + utf8Length first, rest⟩ content?)
    (same : closeFrom source offset =
      closeFrom source (offset + utf8Length first)) :
    Closes source read ⟨offset, first ++ rest⟩ content? := by
  cases content? with
  | some content =>
      obtain ⟨inner, after, isContent, split, leaves⟩ := later
      refine ⟨first ++ inner, after, ?_, ?_, ?_⟩
      · rw [isContent, List.reverse_append, List.reverse_reverse,
          List.append_assoc]
      · exact (congrArg (first ++ ·) split).trans (List.append_assoc ..).symm
      · rw [same, leaves, utf8Length_append, Nat.add_assoc offset]
  | none =>
      obtain ⟨stop, reached, leaves⟩ := later
      exact ⟨stop, .trans ⟨first, rfl, rfl⟩ reached, same.trans leaves⟩

omit isPlace in
theorem closes_contentFrom? {offset : Nat} (read text : List Char)
    (isPlace : (start source).Reaches ⟨offset, text⟩) :
    Closes source read ⟨offset, text⟩ (contentFrom? read text) := by
  fun_induction contentFrom? read text generalizing offset with
  | case1 =>
      exact ⟨_, .refl _, closeFrom_of_reaches isPlace⟩
  | case2 read char rest inductionHypothesis =>
      have passed : (Cursor.mk offset ('\\' :: char :: rest)).Reaches
          ⟨offset + utf8Length ['\\', char], rest⟩ :=
        ⟨['\\', char], rfl, rfl⟩
      refine .of_append ['\\', char]
        (inductionHypothesis (isPlace.trans passed)) ?_
      refine (closeFrom_of_reaches isPlace).trans ?_
      exact congrArg (closeFrom source) (Nat.add_assoc offset 1 _)
  | case3 read rest _ =>
      exact ⟨[], rest, (List.append_nil _).symm, rfl,
        closeFrom_of_reaches isPlace⟩
  | case4 read rest _ _ =>
      exact ⟨_, reaches_skip _, closeFrom_of_reaches isPlace⟩
  | case5 read char rest last notQuote notNewline inductionHypothesis =>
      have passed : (Cursor.mk offset (char :: rest)).Reaches
          ⟨offset + utf8Length [char], rest⟩ := reaches_skip _
      refine .of_append [char] (inductionHypothesis (isPlace.trans passed)) ?_
      refine (closeFrom_of_reaches isPlace).trans ?_
      dsimp only
      rw [if_neg notNewline, if_neg notQuote]
      split
      · rename_i escapes
        cases rest with
        | nil => rfl
        | cons escaped rest => exact (last escaped rest escapes rfl).elim
      · rfl

theorem agrees_string : Agrees source string cursor cursor.string := by
  refine (ends_offset _ _).bind_agrees ((ends_eat isPlace '"').bind_agrees ?_)
  unfold Cursor.string eat?
  split
  · have isInside := isPlace.trans cursor.reaches_skip
    have closes : Closes source [] cursor.skip cursor.skip.content? :=
      closes_contentFrom? [] cursor.skip.rest isInside
    refine (ends_offset _ _).bind_agrees ?_
    dsimp only [Option.getD_some]
    generalize cursor.skip = inside at isInside closes
    cases found : inside.content? with
    | none =>
        rw [found] at closes
        obtain ⟨stop, reached, leaves⟩ := closes
        have ends : Ends source close inside (.ok false) stop :=
          ⟨reached, by rw [close, leaves]; rfl⟩
        exact ⟨_, ends.bind (ends_fail _ _ _)⟩
    | some content =>
        rw [found] at closes
        obtain ⟨inner, rest, isContent, split, leaves⟩ := closes
        obtain rfl : content = inner := isContent
        have atQuote : inside.advance content =
            ⟨inside.offset + utf8Length content, '"' :: rest⟩ := by
          rw [Cursor.advance, split, List.drop_left]
        have toQuote : inside.Reaches (inside.advance content) :=
          reaches_advance ⟨_, split.symm⟩
        have ends : Ends source close inside (.ok true)
            (inside.advance content).skip := by
          refine ⟨toQuote.trans (reaches_skip _), ?_⟩
          rw [close, leaves, atQuote]
          rfl
        have width : (inside.advance content).skip.offset - 1 =
            (inside.advance content).offset := by
          rw [atQuote]
          rfl
        refine ends.bind_agrees ((ends_offset _ _).bind_agrees ?_)
        rw [width]
        refine (ends_cut isInside _ ?_ rfl).bind_agrees ?_
        · rw [atQuote, split]
        · dsimp only
          cases unescape content with
          | ok text =>
              exact ends_pure _ _ _
          | error error =>
              exact ⟨_, ends_fail _ _ _⟩
  · exact ⟨_, (ends_unexpected isPlace _).bind (ends_fail _ _ _)⟩

end Lexing

end Formula
