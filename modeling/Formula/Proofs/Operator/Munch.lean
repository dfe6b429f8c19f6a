import Formula.Proofs.Operator.Matching
import Formula.Source.Cursor

/-!
# Maximal munch

Reading an operator one character at a time takes the longest text that follows
and begins a registered text, and never gives any of it back: what is taken is
registered itself, or it is an error. If no symbol of a table begins, after a
shorter symbol, with a text that is none, then this is the longest symbol that
follows.
-/

namespace Formula

variable {α : Type}

/-! ## The longest start of an operator -/

/-- A text is the longest one in front of a source that begins a registered
text, or empty if there is none. -/
structure LongestStart (registered : String → Option α)
    (source text : List Char) : Prop where
  follows : text <+: source
  begins : text ≠ [] → SomeBeginsWith registered text
  longest : ∀ other, other <+: source → SomeBeginsWith registered other →
    other.length ≤ text.length

namespace LongestStart

variable {registered : String → Option α} {source text other : List Char}

theorem length_le (first : LongestStart registered source text)
    (second : LongestStart registered source other) :
    text.length ≤ other.length := by
  by_cases isEmpty : text = []
  · rw [isEmpty]
    exact Nat.zero_le _
  · exact second.longest text first.follows (first.begins isEmpty)

theorem unique (first : LongestStart registered source text)
    (second : LongestStart registered source other) : text = other := by
  have isPrefix : text <+: other :=
    List.prefix_of_prefix_length_le first.follows second.follows
      (first.length_le second)
  apply isPrefix.eq_of_length_le
  exact second.length_le first

/-- Nothing is taken of a source that no registered text begins like. -/
theorem nil_of_head
    (unbegun : ∀ char, source.head? = some char →
      ¬ SomeBeginsWith registered [char]) :
    LongestStart registered source [] where
  follows := List.nil_prefix
  begins nonempty := absurd rfl nonempty
  longest other isPrefix begins := by
    cases other with
    | nil =>
        exact Nat.le_refl _
    | cons char rest =>
        obtain ⟨after, sourceEq⟩ := isPrefix
        have head : source.head? = some char := by
          rw [← sourceEq]
          rfl
        have begun : SomeBeginsWith registered ([char] ++ rest) := begins
        exact absurd begun.of_append (unbegun char head)

end LongestStart

namespace Cursor

/-- Reading on takes the longest text with which what was read still begins a
registered text. -/
theorem exists_longestMatch {registered : String → Option α}
    (source : List Char) :
    ∀ {state : OperatorMatch α} {read : List Char},
      state.Tracks registered read → SomeBeginsWith registered read →
        ∃ taken, taken <+: source ∧
          (longestMatch state source).Tracks registered (read ++ taken) ∧
            SomeBeginsWith registered (read ++ taken) ∧
              ∀ longer, longer <+: source →
                SomeBeginsWith registered (read ++ longer) →
                  longer.length ≤ taken.length := by
  induction source with
  | nil =>
      intro state read tracks begins
      refine ⟨[], List.nil_prefix, ?_, ?_, fun longer isPrefix _ =>
        isPrefix.length_le⟩
      · rw [List.append_nil]
        exact tracks
      · rw [List.append_nil]
        exact begins
  | cons char rest inductionHypothesis =>
      intro state read tracks begins
      by_cases goesOn : state.hasNext char
      · have begun := (tracks.hasNext_iff char).1 goesOn
        obtain ⟨taken, isPrefix, reached, stillBegins, longest⟩ :=
          inductionHypothesis (tracks.consume char) begun
        have goesOnWith : longestMatch state (char :: rest) =
            longestMatch (state.consume char) rest := by
          rw [longestMatch, if_pos goesOn]
        rw [List.append_assoc, List.singleton_append] at reached stillBegins
        refine ⟨char :: taken, List.cons_prefix_cons.2 ⟨rfl, isPrefix⟩, ?_,
          stillBegins, fun longer isLonger startsLonger => ?_⟩
        · rw [goesOnWith]
          exact reached
        · cases longer with
          | nil =>
              exact Nat.zero_le _
          | cons first longer =>
              obtain ⟨rfl, isRest⟩ := List.cons_prefix_cons.1 isLonger
              have isShorter := longest longer isRest (by
                rw [List.append_assoc, List.singleton_append]
                exact startsLonger)
              exact Nat.succ_le_succ isShorter
      · have stops : longestMatch state (char :: rest) = state := by
          rw [longestMatch, if_neg goesOn]
        refine ⟨[], List.nil_prefix, ?_, ?_,
          fun longer isLonger startsLonger => ?_⟩
        · rw [stops, List.append_nil]
          exact tracks
        · rw [List.append_nil]
          exact begins
        · cases longer with
          | nil =>
              exact Nat.le_refl _
          | cons first longer =>
              obtain ⟨rfl, _⟩ := List.cons_prefix_cons.1 isLonger
              have begun : SomeBeginsWith registered
                  (read ++ [first] ++ longer) := by
                rw [List.append_assoc, List.singleton_append]
                exact startsLonger
              exact absurd ((tracks.hasNext_iff first).2 begun.of_append)
                goesOn

/-- What becomes of a text that is taken as an operator. -/
def takeOperator (cursor : Cursor) (table : OperatorTable α)
    (text : List Char) : Except Error (Option (α × Cursor)) :=
  if text = [] then .ok none
  else
    match table.get? (String.ofList text) with
    | some operator => .ok (some (operator, cursor.advance text))
    | none =>
        .error (cursor.error (.incompleteOperator (String.ofList text)))

theorem takeOperator_eq_none_iff {cursor : Cursor} {table : OperatorTable α}
    {text : List Char} :
    cursor.takeOperator table text = .ok none ↔ text = [] := by
  unfold takeOperator
  by_cases isEmpty : text = []
  · rw [if_pos isEmpty]
    exact iff_of_true rfl isEmpty
  · rw [if_neg isEmpty]
    cases table.get? (String.ofList text) with
    | none =>
        simp [isEmpty]
    | some operator =>
        simp [isEmpty]

theorem takeOperator_eq_some_iff {cursor next : Cursor}
    {table : OperatorTable α} {text : List Char} {operator : α} :
    cursor.takeOperator table text = .ok (some (operator, next)) ↔
      table.get? (String.ofList text) = some operator ∧
        next = cursor.advance text := by
  unfold takeOperator
  by_cases isEmpty : text = []
  · have isUnregistered : table.get? (String.ofList text) = none := by
      rw [isEmpty]
      exact table.get?_of_head?_eq_none rfl
    rw [if_pos isEmpty, isUnregistered]
    simp
  · rw [if_neg isEmpty]
    cases table.get? (String.ofList text) with
    | none =>
        simp
    | some found =>
        simp [eq_comm]

theorem takeOperator_eq_error_iff {cursor : Cursor} {table : OperatorTable α}
    {text : List Char} {error : Error} :
    cursor.takeOperator table text = .error error ↔
      text ≠ [] ∧ table.get? (String.ofList text) = none ∧
        error = .written cursor.offset
          (.incompleteOperator (String.ofList text)) := by
  unfold takeOperator
  by_cases isEmpty : text = []
  · rw [if_pos isEmpty]
    simp [isEmpty]
  · rw [if_neg isEmpty]
    cases table.get? (String.ofList text) with
    | none =>
        simp [isEmpty, Cursor.error, eq_comm]
    | some operator =>
        simp

/-- The longest start of an operator is taken as one. -/
theorem exists_operator?_eq (cursor : Cursor) (table : OperatorTable α) :
    ∃ text, LongestStart table.get? cursor.rest text ∧
      cursor.operator? table = cursor.takeOperator table text := by
  obtain ⟨offset, source⟩ := cursor
  cases source with
  | nil =>
      refine ⟨[], LongestStart.nil_of_head fun char isHead => ?_, rfl⟩
      cases isHead
  | cons first rest =>
      by_cases starts : table.startsWith first
      · have isSome : (table.start? first).isSome := by
          rw [OperatorTable.isSome_start?]
          exact starts
        obtain ⟨state, started⟩ := Option.isSome_iff_exists.1 isSome
        have begun : SomeBeginsWith table.get? [first] :=
          someBeginsWith_iff.2 ((table.startsWith_iff first).1 starts)
        obtain ⟨taken, isPrefix, tracks, begins, longest⟩ :=
          exists_longestMatch rest (OperatorMatch.tracks_of_start? started)
            begun
        have isText : (first :: rest).take
            (longestMatch state rest).consumed = first :: taken := by
          rw [tracks.consumed]
          exact (List.prefix_iff_eq_take.1
            (List.cons_prefix_cons.2 ⟨rfl, isPrefix⟩)).symm
        refine ⟨first :: taken, ⟨List.cons_prefix_cons.2 ⟨rfl, isPrefix⟩,
          fun _ => begins, fun other isOther otherBegins => ?_⟩, ?_⟩
        · cases other with
          | nil =>
              exact Nat.zero_le _
          | cons char other =>
              obtain ⟨rfl, isRest⟩ := List.cons_prefix_cons.1 isOther
              exact Nat.succ_le_succ (longest other isRest otherBegins)
        · have complete := tracks.complete?_eq
          unfold operator? takeOperator
          simp only [starts, if_true, started, isText, complete]
          rw [if_neg (List.cons_ne_nil first taken)]
          rfl
      · refine ⟨[], LongestStart.nil_of_head fun char isHead begins => ?_, ?_⟩
        · cases isHead
          exact starts ((table.startsWith_iff first).2
            (someBeginsWith_iff.1 begins))
        · unfold operator? takeOperator
          simp only [starts]
          rfl

/-- The place after a text that follows is told by its offset and what follows
there. -/
theorem eq_advance_iff {cursor next : Cursor} {text : List Char}
    (follows : text <+: cursor.rest) :
    next = cursor.advance text ↔
      next.offset = cursor.offset + utf8Length text ∧
        cursor.rest = text ++ next.rest := by
  obtain ⟨after, restEq⟩ := follows
  obtain ⟨offset, rest⟩ := next
  have isAfter : cursor.rest.drop text.length = after := by
    rw [← restEq, List.drop_left]
  rw [advance, isAfter, Cursor.mk.injEq, ← restEq,
    List.append_cancel_left_eq]
  exact and_congr_right fun _ => eq_comm

/-- Reading an operator takes the longest text that follows and begins a
registered text. Nothing is read exactly if this text is empty; if it is
registered itself, it is read as what it is registered with; otherwise it is
reported where it begins. No other error arises. -/
theorem operator?_takes_longest_start (cursor : Cursor)
    (table : OperatorTable α) :
    ∃ text, LongestStart table.get? cursor.rest text ∧
      (∀ other, LongestStart table.get? cursor.rest other → other = text) ∧
        (cursor.operator? table = .ok none ↔ text = []) ∧
          (∀ operator next,
            cursor.operator? table = .ok (some (operator, next)) ↔
              table.get? (String.ofList text) = some operator ∧
                next.offset = cursor.offset + utf8Length text ∧
                  cursor.rest = text ++ next.rest) ∧
            (∀ error, cursor.operator? table = .error error ↔
              text ≠ [] ∧ table.get? (String.ofList text) = none ∧
                error = .written cursor.offset
                  (.incompleteOperator (String.ofList text))) ∧
              (SyntaxFault.incompleteOperator (String.ofList text)).message =
                "incomplete operator '" ++ String.ofList text ++ "'" ∧
                ∀ char, cursor.operator? table ≠ .error (.noOperator char) := by
  obtain ⟨text, isLongest, taken⟩ := exists_operator?_eq cursor table
  have quoted : (SyntaxFault.incompleteOperator (String.ofList text)).message =
      "incomplete operator '" ++ String.ofList text ++ "'" := rfl
  rw [taken]
  refine ⟨text, isLongest, fun other isOther => isOther.unique isLongest,
    takeOperator_eq_none_iff, fun operator next => ?_,
    fun error => takeOperator_eq_error_iff, quoted, fun char failed => ?_⟩
  · rw [takeOperator_eq_some_iff, eq_advance_iff isLongest.follows]
  · obtain ⟨_, _, isIncomplete⟩ := takeOperator_eq_error_iff.1 failed
    cases isIncomplete

/-- Two signs of equality where a table lists one and three. -/
theorem operator?_between_one_and_three :
    let table : OperatorTable Nat := .ofList [("=", 1), ("===", 3)]
    LongestStart table.get? (Cursor.start "==").rest "==".toList ∧
      (Cursor.start "==").operator? table =
        .error (.written 0 (.incompleteOperator "==")) := by
  intro table
  have isLongest :
      LongestStart table.get? (Cursor.start "==").rest "==".toList := by
    refine ⟨List.prefix_rfl, fun _ => ⟨"===", by decide, by decide⟩,
      fun other isPrefix _ => isPrefix.length_le⟩
  obtain ⟨text, _, unique, _, _, failing, _, _⟩ :=
    operator?_takes_longest_start (Cursor.start "==") table
  refine ⟨isLongest, (failing _).2 ?_⟩
  rw [← unique _ isLongest]
  decide

/-! ## Symbols -/

/-- An operator is read by maximal munch: its symbol follows, and no longer
symbol does. -/
def Munches (symbol : α → String) (cursor : Cursor) (operator : α)
    (next : Cursor) : Prop :=
  (symbol operator).toList <+: cursor.rest ∧
    (∀ other, (symbol other).toList <+: cursor.rest →
      (symbol other).toList.length ≤ (symbol operator).toList.length) ∧
      next = cursor.advance (symbol operator).toList

end Cursor

/-- A table lists operators by symbols that are not empty; where a symbol begins
with a text that is no symbol, the text begins with none. -/
structure OperatorTable.Lists (table : OperatorTable α)
    (symbol : α → String) : Prop where
  registered : ∀ text operator,
    table.get? text = some operator ↔ text = symbol operator
  nonempty : ∀ operator, (symbol operator).toList ≠ []
  closed : ∀ operator text, text ≠ [] →
    text <+: (symbol operator).toList →
      (∃ other, (symbol other).toList = text) ∨
        ∀ other, ¬ (symbol other).toList <+: text

theorem OperatorTable.Lists.someBeginsWith_iff {table : OperatorTable α}
    {symbol : α → String} (lists : table.Lists symbol) {text : List Char} :
    SomeBeginsWith table.get? text ↔
      ∃ operator, text <+: (symbol operator).toList := by
  constructor
  · rintro ⟨registered, isRegistered, isPrefix⟩
    obtain ⟨operator, found⟩ := Option.isSome_iff_exists.1 isRegistered
    rw [(lists.registered _ operator).1 found] at isPrefix
    exact ⟨operator, isPrefix⟩
  · rintro ⟨operator, isPrefix⟩
    have found := (lists.registered (symbol operator) operator).2 rfl
    exact ⟨symbol operator, Option.isSome_iff_exists.2 ⟨operator, found⟩,
      isPrefix⟩

namespace Cursor

theorem operator?_eq_some_iff {table : OperatorTable α} {symbol : α → String}
    (lists : table.Lists symbol) {cursor next : Cursor} {operator : α} :
    cursor.operator? table = .ok (some (operator, next)) ↔
      cursor.Munches symbol operator next := by
  obtain ⟨text, isLongest, taken⟩ := exists_operator?_eq cursor table
  have isShort : ∀ other, (symbol other).toList <+: cursor.rest →
      (symbol other).toList.length ≤ text.length := by
    intro other follows
    apply isLongest.longest _ follows
    exact lists.someBeginsWith_iff.2 ⟨other, List.prefix_rfl⟩
  rw [taken, takeOperator_eq_some_iff]
  constructor
  · rintro ⟨found, isNext⟩
    have isSymbol : text = (symbol operator).toList := by
      rw [← (lists.registered _ operator).1 found, String.toList_ofList]
    rw [isSymbol] at isShort isNext
    exact ⟨isSymbol ▸ isLongest.follows, isShort, isNext⟩
  · rintro ⟨follows, isLongestSymbol, isNext⟩
    have symbolInText : (symbol operator).toList <+: text :=
      List.prefix_of_prefix_length_le follows isLongest.follows
        (isShort operator follows)
    have nonempty : text ≠ [] := by
      intro isEmpty
      rw [isEmpty, List.prefix_nil] at symbolInText
      exact lists.nonempty operator symbolInText
    have isSymbol : text = (symbol operator).toList := by
      obtain ⟨owner, isPrefix⟩ :=
        lists.someBeginsWith_iff.1 (isLongest.begins nonempty)
      rcases lists.closed owner text nonempty isPrefix with
        ⟨other, otherEq⟩ | isNone
      · have isShorter := isLongestSymbol other (otherEq ▸ isLongest.follows)
        rw [otherEq] at isShorter
        exact (symbolInText.eq_of_length_le isShorter).symm
      · exact absurd symbolInText (isNone operator)
    have found : table.get? (String.ofList text) = some operator := by
      rw [lists.registered, isSymbol, String.ofList_toList]
    rw [← isSymbol] at isNext
    exact ⟨found, isNext⟩

end Cursor

/-! ## The standard tables -/

theorem UnaryOperator.mem_all (operator : UnaryOperator) : operator ∈ all := by
  cases operator <;> decide

namespace OperatorTable

theorem get?_ofList (entries : List (String × α)) (text : String) :
    (ofList entries).get? text =
      TableChange.registered
        (entries.map fun entry => .insert entry.1 entry.2) text := by
  rw [← TableChange.get?_foldl_apply, List.foldl_map]
  rfl

/-- What a table of a list of entries holds is one of them. -/
theorem mem_of_get?_ofList {entries : List (String × α)} {text : String}
    {value : α} (found : (ofList entries).get? text = some value) :
    (text, value) ∈ entries := by
  rw [get?_ofList, TableChange.registered] at found
  split at found
  · cases found
  obtain ⟨change, isLast, isValue⟩ := Option.bind_eq_some_iff.1 found
  have isText := List.find?_some isLast
  have isChange := List.mem_of_find?_eq_some isLast
  rw [List.mem_reverse] at isChange
  obtain ⟨⟨entryText, entryValue⟩, isEntry, rfl⟩ := List.mem_map.1 isChange
  cases isValue
  rw [← of_decide_eq_true isText]
  exact isEntry

/-- Each entry of a list leaves a value under its text. -/
theorem exists_get?_ofList {entries : List (String × α)} {text : String}
    {value : α} (isEntry : (text, value) ∈ entries) (nonempty : text ≠ "") :
    ∃ other, (ofList entries).get? text = some other := by
  have isChange : TableChange.insert text value ∈
      (entries.map fun entry => TableChange.insert entry.1 entry.2).reverse :=
    List.mem_reverse.2 (List.mem_map.2 ⟨_, isEntry, rfl⟩)
  have isAbout := List.find?_isSome
    (p := fun change : TableChange α => change.text = text) |>.2
      ⟨_, isChange, decide_eq_true rfl⟩
  obtain ⟨change, isLast⟩ := Option.isSome_iff_exists.1 isAbout
  have isInsert := List.mem_of_find?_eq_some isLast
  rw [List.mem_reverse] at isInsert
  obtain ⟨entry, _, rfl⟩ := List.mem_map.1 isInsert
  refine ⟨entry.2, ?_⟩
  rw [get?_ofList, TableChange.registered, if_neg nonempty, isLast]
  rfl

/-- What has to be checked of a table of symbols is about finitely many
texts. -/
theorem lists_ofList {symbol : α → String} {all : List α}
    (memAll : ∀ operator, operator ∈ all)
    (differ : ∀ operator ∈ all, ∀ other ∈ all,
      (symbol operator).toList = (symbol other).toList → operator = other)
    (nonempty : ∀ operator ∈ all, (symbol operator).toList ≠ [])
    (closed : ∀ operator ∈ all, ∀ length ≤ (symbol operator).toList.length,
      length = 0 ∨
        (∃ other ∈ all,
          (symbol other).toList = (symbol operator).toList.take length) ∨
          ∀ other ∈ all,
            ¬ (symbol other).toList <+: (symbol operator).toList.take length) :
    (ofList (all.map fun operator => (symbol operator, operator))).Lists
      symbol where
  registered text operator := by
    have ownSymbol : ∀ {text operator},
        (text, operator) ∈ all.map (fun other => (symbol other, other)) →
          text = symbol operator := by
      intro text operator isEntry
      obtain ⟨other, _, entryEq⟩ := List.mem_map.1 isEntry
      cases entryEq
      rfl
    constructor
    · intro found
      exact ownSymbol (mem_of_get?_ofList found)
    · rintro rfl
      have isEntry : (symbol operator, operator) ∈
          all.map (fun other => (symbol other, other)) :=
        List.mem_map.2 ⟨operator, memAll operator, rfl⟩
      have isFilled : symbol operator ≠ "" := fun isEmpty =>
        nonempty operator (memAll operator) (by rw [isEmpty]; rfl)
      obtain ⟨other, found⟩ := exists_get?_ofList isEntry isFilled
      have sameSymbol := ownSymbol (mem_of_get?_ofList found)
      have same := differ operator (memAll operator) other (memAll other)
        (by rw [sameSymbol])
      rw [found, same]
  nonempty operator := nonempty operator (memAll operator)
  closed operator text isFilled isPrefix := by
    rcases closed operator (memAll operator) text.length isPrefix.length_le with
      isZero | ⟨other, _, otherEq⟩ | isNone
    · exact absurd (List.length_eq_zero_iff.1 isZero) isFilled
    · refine Or.inl ⟨other, ?_⟩
      rw [otherEq, ← List.prefix_iff_eq_take.1 isPrefix]
    · refine Or.inr fun other => ?_
      rw [List.prefix_iff_eq_take.1 isPrefix]
      exact isNone other (memAll other)

theorem lists_binary : binary.Lists BinaryOperator.symbol :=
  lists_ofList BinaryOperator.mem_all (by decide) (by decide) (by decide)

theorem lists_unary : unary.Lists UnaryOperator.symbol :=
  lists_ofList UnaryOperator.mem_all (by decide) (by decide) (by decide)

end OperatorTable

end Formula
