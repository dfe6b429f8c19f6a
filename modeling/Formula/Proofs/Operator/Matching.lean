import Mathlib.Data.List.Induction
import Formula.Operator.Match

/-!
# Matching operators by prefixes

A table answers as the finite map that the changes made to it leave, in
whatever order they came. A match begun from it answers as the texts of that
map that have the characters read so far as a prefix, whatever is read and
whatever becomes of the table meanwhile.
-/

namespace Formula

variable {α : Type}

/-! ## Changes of a table -/

inductive TableChange (α : Type)
  | insert (text : String) (value : α)
  | remove (text : String)

namespace TableChange

def text : TableChange α → String
  | .insert text _ => text
  | .remove text => text

def value? : TableChange α → Option α
  | .insert _ value => some value
  | .remove _ => none

def apply (table : OperatorTable α) : TableChange α → OperatorTable α
  | .insert text value => table.insert text value
  | .remove text => table.erase text

/-- What changes, the latest last, leave registered under a text: the value of
the last change that is about it. Nothing is registered under the empty
text. -/
def registered (changes : List (TableChange α)) (text : String) : Option α :=
  if text = "" then none
  else
    (changes.reverse.find? fun change => change.text = text).bind value?

theorem get?_apply (table : OperatorTable α) (change : TableChange α)
    (text : String) :
    (apply table change).get? text =
      if text = change.text ∧ text ≠ "" then change.value?
      else table.get? text := by
  cases change with
  | insert inserted value =>
      rw [apply, OperatorTable.get?_insert]
      by_cases same : text = inserted
      · subst same
        rfl
      · rw [if_neg fun both => same both.1, if_neg fun both => same both.1]
  | remove removed =>
      have erased := table.get?_erase removed text
      by_cases same : text = removed
      · subst same
        have isAbsent : (apply table (.remove text)).get? text = none := by
          rw [if_pos rfl] at erased
          exact erased
        rw [isAbsent]
        by_cases isEmpty : text = ""
        · rw [if_neg fun both => both.2 isEmpty, isEmpty]
          exact (table.get?_of_head?_eq_none rfl).symm
        · rw [if_pos ⟨rfl, isEmpty⟩]
          rfl
      · rw [if_neg same] at erased
        rw [if_neg fun both => same both.1]
        exact erased

/-- After any changes, a table holds what they leave registered. -/
theorem get?_foldl_apply (changes : List (TableChange α)) (text : String) :
    (changes.foldl apply OperatorTable.empty).get? text =
      registered changes text := by
  induction changes using List.reverseRecOn with
  | nil =>
      simp [registered]
  | append_singleton earlier change inductionHypothesis =>
      rw [List.foldl_append, List.foldl_cons, List.foldl_nil, get?_apply,
        inductionHypothesis]
      unfold registered
      rw [List.reverse_append, List.reverse_singleton, List.singleton_append]
      by_cases isEmpty : text = ""
      · rw [if_neg fun both => both.2 isEmpty, if_pos isEmpty, if_pos isEmpty]
      · rw [if_neg isEmpty, if_neg isEmpty]
        by_cases same : text = change.text
        · rw [if_pos ⟨same, isEmpty⟩,
            List.find?_cons_of_pos (by simp [same])]
          rfl
        · rw [if_neg fun both => same both.1,
            List.find?_cons_of_neg (by simp [Ne.symm same])]

end TableChange

/-! ## Prefixes of registered texts -/

/-- Some registered text begins with these characters. -/
def SomeBeginsWith (registered : String → Option α) (read : List Char) :
    Prop :=
  ∃ text, (registered text).isSome ∧ read <+: text.toList

theorem someBeginsWith_iff {registered : String → Option α}
    {read : List Char} :
    SomeBeginsWith registered read ↔
      ∃ rest value, registered (String.ofList (read ++ rest)) = some value := by
  constructor
  · rintro ⟨text, isRegistered, rest, textEq⟩
    obtain ⟨value, found⟩ := Option.isSome_iff_exists.1 isRegistered
    refine ⟨rest, value, ?_⟩
    rw [textEq, String.ofList_toList]
    exact found
  · rintro ⟨rest, value, found⟩
    have isRegistered := Option.isSome_iff_exists.2 ⟨value, found⟩
    refine ⟨_, isRegistered, rest, ?_⟩
    rw [String.toList_ofList]

theorem SomeBeginsWith.of_append {registered : String → Option α}
    {read more : List Char}
    (begins : SomeBeginsWith registered (read ++ more)) :
    SomeBeginsWith registered read := by
  obtain ⟨text, isRegistered, isPrefix⟩ := begins
  exact ⟨text, isRegistered, (List.prefix_append read more).trans isPrefix⟩

namespace OperatorMatch

/-- A match has read some characters, and what its candidates miss are the
rests of the registered texts that begin with these characters. -/
structure Tracks (state : OperatorMatch α) (registered : String → Option α)
    (read : List Char) : Prop where
  consumed : state.consumed = read.length
  missing? : ∀ rest,
    state.missing? rest = registered (String.ofList (read ++ rest))

variable {state : OperatorMatch α} {registered : String → Option α}
  {read : List Char}

theorem tracks_of_start? {table : OperatorTable α} {first : Char}
    (started : table.start? first = some state) :
    state.Tracks table.get? [first] where
  consumed := OperatorTable.consumed_of_start? started
  missing? := OperatorTable.missing?_of_start? started

/-- Reading one more character, accepted or not, goes on tracking. -/
theorem Tracks.consume (tracks : state.Tracks registered read) (char : Char) :
    (state.consume char).Tracks registered (read ++ [char]) where
  consumed := by
    rw [List.length_append, List.length_singleton, ← tracks.consumed]
    rfl
  missing? rest := by
    rw [missing?_consume, tracks.missing?, List.append_assoc,
      List.singleton_append]

theorem Tracks.isAlive_iff (tracks : state.Tracks registered read) :
    state.isAlive ↔ SomeBeginsWith registered read := by
  rw [OperatorMatch.isAlive_iff, someBeginsWith_iff]
  simp only [tracks.missing?]

theorem Tracks.hasNext_iff (tracks : state.Tracks registered read)
    (char : Char) :
    state.hasNext char ↔ SomeBeginsWith registered (read ++ [char]) := by
  rw [OperatorMatch.hasNext_iff, someBeginsWith_iff]
  simp only [tracks.missing?, List.append_assoc, List.singleton_append]

theorem Tracks.complete?_eq (tracks : state.Tracks registered read) :
    state.complete? = registered (String.ofList read) := by
  rw [OperatorMatch.complete?_eq, tracks.missing?, List.append_nil]

theorem Tracks.matched?_eq_some_iff (tracks : state.Tracks registered read)
    (value : α) :
    state.matched? = some value ↔
      registered (String.ofList read) = some value ∧
        ∀ text, (registered text).isSome → read <+: text.toList →
          text = String.ofList read := by
  rw [OperatorMatch.matched?_eq_some_iff, tracks.missing?, List.append_nil]
  apply and_congr_right
  intro _
  constructor
  · rintro onlyWhole text isRegistered ⟨rest, textEq⟩
    obtain ⟨other, found⟩ := Option.isSome_iff_exists.1 isRegistered
    have isMissing : state.missing? rest = some other := by
      rw [tracks.missing?, textEq, String.ofList_toList]
      exact found
    have isWhole := onlyWhole rest other isMissing
    rw [isWhole, List.append_nil] at textEq
    rw [textEq, String.ofList_toList]
  · intro unextended rest other isMissing
    rw [tracks.missing?] at isMissing
    have isRegistered := Option.isSome_iff_exists.2 ⟨other, isMissing⟩
    have isPrefix : read <+: (String.ofList (read ++ rest)).toList := by
      rw [String.toList_ofList]
      exact List.prefix_append read rest
    have sameText := unextended _ isRegistered isPrefix
    exact List.append_right_eq_self.1 (String.ofList_injective sameText)

end OperatorMatch

/-! ## Tables that change while a match is on -/

/-- A table and a match that was begun from it. -/
structure MatchSession (α : Type) where
  table : OperatorTable α
  state : OperatorMatch α

inductive MatchStep (α : Type)
  | change (change : TableChange α)
  | consume (char : Char)

namespace MatchStep

def change? : MatchStep α → Option (TableChange α)
  | .change made => some made
  | .consume _ => none

def consumed? : MatchStep α → Option Char
  | .change _ => none
  | .consume char => some char

end MatchStep

namespace MatchSession

def step (session : MatchSession α) : MatchStep α → MatchSession α
  | .change made => ⟨made.apply session.table, session.state⟩
  | .consume char => ⟨session.table, session.state.consume char⟩

theorem tracks_step {session : MatchSession α}
    {registered : String → Option α} {read : List Char}
    (tracks : session.state.Tracks registered read) (step : MatchStep α) :
    (session.step step).state.Tracks registered
      (read ++ step.consumed?.toList) := by
  cases step with
  | change made =>
      have unread : read ++ (MatchStep.change made).consumed?.toList = read :=
        List.append_nil read
      rw [unread]
      exact tracks
  | consume char =>
      exact tracks.consume char

/-- Whatever happens, the match goes on tracking what was registered when it
began. -/
theorem tracks_foldl_step {registered : String → Option α}
    (steps : List (MatchStep α)) :
    ∀ {session : MatchSession α} {read : List Char},
      session.state.Tracks registered read →
        (steps.foldl step session).state.Tracks registered
          (read ++ steps.filterMap MatchStep.consumed?) := by
  induction steps with
  | nil =>
      intro session read tracks
      rw [List.filterMap_nil, List.append_nil]
      exact tracks
  | cons first rest inductionHypothesis =>
      intro session read tracks
      have reached := inductionHypothesis (tracks_step tracks first)
      have readEq : read ++ (first :: rest).filterMap MatchStep.consumed? =
          read ++ first.consumed?.toList ++
            rest.filterMap MatchStep.consumed? := by
        cases first with
        | change | consume =>
            simp [List.filterMap_cons, MatchStep.consumed?]
      rw [readEq]
      exact reached

/-- Meanwhile the table is changed as it would be without the match. -/
theorem table_foldl_step (steps : List (MatchStep α)) :
    ∀ session : MatchSession α,
      (steps.foldl step session).table =
        (steps.filterMap MatchStep.change?).foldl TableChange.apply
          session.table := by
  induction steps with
  | nil =>
      intro session
      rfl
  | cons first rest inductionHypothesis =>
      intro session
      rw [List.foldl_cons, inductionHypothesis]
      cases first with
      | change | consume =>
          simp [List.filterMap_cons, MatchStep.change?, step]

end MatchSession

/-- A table is the map that the changes made to it leave registered: it gives
the registered values, tells them on removal, and begins a match with exactly
the characters that registered texts begin with. A match reads any characters,
and tells of them what the texts registered when it began tell: whether one
begins with them, or with them and one more character, the value of these
characters themselves, and that value again if no longer text begins with them.
Changes made to the table meanwhile do not show in the match. -/
theorem matching_by_prefixes (changes : List (TableChange α)) :
    let table := changes.foldl TableChange.apply OperatorTable.empty
    let registered := TableChange.registered changes
    (∀ text, table.get? text = registered text ∧
        (table.remove text).1 = registered text) ∧
      (∀ char, (table.startsWith char ↔ SomeBeginsWith registered [char]) ∧
        (table.start? char = none ↔ ¬ SomeBeginsWith registered [char])) ∧
      ∀ first state, table.start? first = some state →
        ∀ steps : List (MatchStep α),
          let session := steps.foldl MatchSession.step ⟨table, state⟩
          let read := first :: steps.filterMap MatchStep.consumed?
          session.table =
              (changes ++ steps.filterMap MatchStep.change?).foldl
                TableChange.apply OperatorTable.empty ∧
            (session.state.isAlive ↔ SomeBeginsWith registered read) ∧
            (∀ char, session.state.hasNext char ↔
              SomeBeginsWith registered (read ++ [char])) ∧
            session.state.complete? = registered (String.ofList read) ∧
            (∀ value, session.state.matched? = some value ↔
              registered (String.ofList read) = some value ∧
                ∀ text, (registered text).isSome → read <+: text.toList →
                  text = String.ofList read) ∧
            session.state.consumed =
              (steps.filterMap MatchStep.consumed?).length + 1 := by
  intro table registered
  have isMap : table.get? = registered :=
    funext (TableChange.get?_foldl_apply changes)
  have starts : ∀ char,
      table.startsWith char ↔ SomeBeginsWith registered [char] := by
    intro char
    rw [OperatorTable.startsWith_iff, isMap, someBeginsWith_iff]
    rfl
  refine ⟨fun text => ?_, fun char => ⟨starts char, ?_⟩, ?_⟩
  · rw [OperatorTable.remove_fst, isMap]
    exact ⟨rfl, rfl⟩
  · rw [← Option.not_isSome_iff_eq_none, OperatorTable.isSome_start?]
    exact not_congr (starts char)
  · intro first state started steps session read
    have begun : (MatchSession.mk table state).state.Tracks registered
        [first] :=
      isMap ▸ OperatorMatch.tracks_of_start? started
    have tracks : session.state.Tracks registered read :=
      MatchSession.tracks_foldl_step steps begun
    have changed : session.table = _ :=
      MatchSession.table_foldl_step steps ⟨table, state⟩
    refine ⟨?_, tracks.isAlive_iff, tracks.hasNext_iff, tracks.complete?_eq,
      tracks.matched?_eq_some_iff, tracks.consumed⟩
    rw [changed, List.foldl_append]

/-- A table of arrows, one of them removed before a match begins and one while
it is on. -/
theorem matching_of_removed_arrow :
    let changes : List (TableChange Nat) :=
      [.insert "→" 1, .insert "→→" 2, .insert "→=" 3, .remove "→="]
    let table := changes.foldl TableChange.apply OperatorTable.empty
    ∃ state, table.start? '→' = some state ∧
      let steps : List (MatchStep Nat) :=
        [.change (.remove "→→"), .consume '→']
      let session := steps.foldl MatchSession.step ⟨table, state⟩
      session.table.get? "→→" = none ∧ session.state.matched? = some 2 ∧
        ¬ session.state.hasNext '=' ∧ session.state.consumed = 2 := by
  intro changes table
  obtain ⟨isMap, starts, matching⟩ := matching_by_prefixes changes
  have arrows : ∀ text, (TableChange.registered changes text).isSome →
      text = "→" ∨ text = "→→" := by
    intro text isRegistered
    by_contra neither
    obtain ⟨notOne, notTwo⟩ := not_or.1 neither
    by_cases isRemoved : text = "→="
    · subst isRemoved
      revert isRegistered
      decide
    · simp [changes, TableChange.registered, TableChange.text,
        Ne.symm notOne, Ne.symm notTwo, Ne.symm isRemoved] at isRegistered
  have begun : (table.start? '→').isSome := by
    rw [OperatorTable.isSome_start?]
    exact (starts '→').1.2 ⟨"→→", by decide, by decide⟩
  obtain ⟨state, started⟩ := Option.isSome_iff_exists.1 begun
  obtain ⟨changed, alive, next, complete, matched, consumed⟩ :=
    matching '→' state started [.change (.remove "→→"), .consume '→']
  refine ⟨state, started, ?_, ?_, ?_, consumed⟩
  · rw [changed, TableChange.get?_foldl_apply]
    decide
  · refine (matched 2).2 ⟨by decide, fun text isRegistered isPrefix => ?_⟩
    rcases arrows text isRegistered with rfl | rfl
    · revert isPrefix
      decide
    · decide
  · intro goesOn
    obtain ⟨text, isRegistered, isPrefix⟩ := (next '=').1 goesOn
    rcases arrows text isRegistered with rfl | rfl
    · revert isPrefix
      decide
    · revert isPrefix
      decide

end Formula
