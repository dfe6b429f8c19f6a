import Formula.Proofs.Source.NumberReadings

/-!
# Offsets of a lexer

However a lexer is used, whether its calls succeed or fail, and whether what
they read begins where they are made or not: its offset stays between two
characters of its source, only going back moves it backwards, and what it
reports shows at or behind the offset.
-/

namespace Formula

/-! ## Calls -/

inductive LexerCall : Type 1
  | offset
  | reset (target : Nat)
  | skipBlanks
  | peek
  | eat (char : Char)
  | identifier
  | number (negative : Bool)
  | string
  | operator {α : Type} (table : OperatorTable α)
  | unexpected (expected : String)

/-- What a lexer does at a call, which leaves an offset if it asks for it. The
error that something was expected counts as a failure. -/
def LexerCall.perform : LexerCall → Lexing (Option Nat)
  | offset => do
      return some (← Lexing.offset)
  | reset target => do
      Lexing.reset target
      return none
  | skipBlanks => do
      Lexing.skipBlanks
      return none
  | peek => do
      let _ ← Lexing.peek
      return none
  | eat char => do
      let _ ← Lexing.eat char
      return none
  | identifier => do
      let _ ← Lexing.identifier
      return none
  | number negative => do
      let _ ← Lexing.number negative
      return none
  | string => do
      let _ ← Lexing.string
      return none
  | operator table => do
      let _ ← Lexing.operator table
      return none
  | unexpected expected => do
      Lexing.fail (← Lexing.unexpected expected)

/-- A lexer while it is used: its offset, and the offsets it was asked for. -/
structure LexerState where
  offset : Nat
  returned : List Nat

namespace LexerState

def Allows (state : LexerState) : LexerCall → Prop
  | .reset target => target ∈ state.returned
  | _ => True

/-- What a call leaves; nothing if it is undefined. -/
def call? (source : String) (state : LexerState) (call : LexerCall) :
    Option (Except Error (Option Nat) × LexerState) :=
  match call.perform source state.offset with
  | none => none
  | some (outcome, offset) =>
      let returned :=
        match outcome with
        | .ok (some asked) => asked :: state.returned
        | _ => state.returned
      some (outcome, ⟨offset, returned⟩)

/-- A state that some calls lead to from the start of a source. -/
inductive Reached (source : String) : LexerState → Prop
  | start : Reached source ⟨0, []⟩
  | call {state next : LexerState} {call : LexerCall}
      {outcome : Except Error (Option Nat)} (reached : state.Reached source)
      (allowed : state.Allows call)
      (leaves : state.call? source call = some (outcome, next)) :
      Reached source next

end LexerState

/-! ## Single calls -/

theorem Cursor.Reaches.offset_le {before after : Cursor}
    (reached : before.Reaches after) : before.offset ≤ after.offset := by
  obtain ⟨text, _, offsetEq⟩ := reached
  rw [offsetEq]
  exact Nat.le_add_right _ _

namespace Lexing

variable {source : String} {cursor : Cursor}

/-- A reading for a call is defined at a place. It stops where it has got to,
leaves no other offset than this, and reports an error that shows there or
before. -/
def IsSound (source : String) (reading : Lexing (Option Nat))
    (cursor : Cursor) : Prop :=
  ∃ outcome stop, Ends source reading cursor outcome stop ∧
    match outcome with
    | .ok asked? => ∀ asked ∈ asked?, asked = stop.offset
    | .error error => cursor.Locates error

variable {α : Type} {reading : Lexing α}

theorem Ends.isSound {value : α} {stop : Cursor}
    (ends : Ends source reading cursor (.ok value) stop) :
    IsSound source (do let _ ← reading; return none) cursor :=
  ⟨.ok none, stop, ends.bind (ends_pure _ _ _), nofun⟩

theorem Agrees.isSound {result : Except Error (α × Cursor)}
    (agrees : Agrees source reading cursor result)
    (locates : ∀ error, result = .error error → cursor.Locates error) :
    IsSound source (do let _ ← reading; return none) cursor := by
  cases result with
  | ok read =>
      exact Ends.isSound agrees
  | error error =>
      obtain ⟨stop, fails⟩ := agrees
      exact ⟨.error error, stop, fails.bind_error, locates error rfl⟩

/-- Every call but going back is defined at every place. -/
theorem isSound_perform (isPlace : (Cursor.start source).Reaches cursor)
    (call : LexerCall) (noReset : ∀ target, call ≠ .reset target) :
    IsSound source call.perform cursor := by
  cases call with
  | offset =>
      refine ⟨_, _, (ends_offset source cursor).bind (ends_pure _ _ _), ?_⟩
      rintro asked ⟨⟩
      rfl
  | reset target =>
      exact absurd rfl (noReset target)
  | skipBlanks =>
      exact (ends_skipBlanks isPlace).isSound
  | peek =>
      exact (ends_peek isPlace).isSound
  | eat char =>
      exact (ends_eat isPlace char).isSound
  | identifier =>
      refine (agrees_identifier isPlace).isSound fun error failed => ?_
      cases failed
  | number negative =>
      exact (agrees_number isPlace negative).isSound fun error =>
        Cursor.locates_of_number
  | string =>
      exact (agrees_string isPlace).isSound fun error =>
        Cursor.locates_of_string
  | operator table =>
      refine (agrees_operator isPlace table).isSound fun error failed => ?_
      cases read : cursor.operator? table with
      | ok found =>
          rw [read] at failed
          cases failed
      | error reported =>
          rw [read] at failed
          cases failed
          exact Cursor.locates_of_operator? read
  | unexpected expected =>
      exact ⟨_, _, (ends_unexpected isPlace expected).bind (ends_fail _ _ _),
        Cursor.locates_error _ _⟩

end Lexing

/-! ## Sequences of calls -/

namespace LexerState

variable {source : String} {state next : LexerState} {call : LexerCall}
  {outcome : Except Error (Option Nat)}

/-- The offset of a lexer and those that it was asked for are those of
places. -/
def IsSound (source : String) (state : LexerState) : Prop :=
  ∀ offset ∈ state.offset :: state.returned,
    ∃ place, (Cursor.start source).Reaches place ∧ place.offset = offset

structure Keeps (source : String) (state : LexerState) (call : LexerCall)
    (outcome : Except Error (Option Nat)) (next : LexerState) : Prop where
  leaves : state.call? source call = some (outcome, next)
  isSound : next.IsSound source
  forward : (∀ target, call ≠ .reset target) → state.offset ≤ next.offset
  shows : ∀ offset fault, outcome = .error (.written offset fault) →
    IsBoundary source offset ∧ state.offset ≤ offset

theorem IsSound.isBoundary (isSound : state.IsSound source) :
    IsBoundary source state.offset := by
  obtain ⟨place, isPlace, isOffset⟩ := isSound _ List.mem_cons_self
  rw [← isOffset]
  exact Cursor.isBoundary_of_reaches isPlace

theorem isSound_start (source : String) : IsSound source ⟨0, []⟩ := by
  intro offset isOffset
  obtain rfl := List.mem_singleton.1 isOffset
  exact ⟨Cursor.start source, .refl _, rfl⟩

/-- Going back to an offset that was asked for is defined. -/
theorem IsSound.keeps_reset (isSound : state.IsSound source) {target : Nat}
    (wasReturned : target ∈ state.returned) :
    state.Keeps source (.reset target) (.ok none)
      ⟨target, state.returned⟩ := by
  obtain ⟨place, isPlace, isTarget⟩ :=
    isSound target (List.mem_cons_of_mem _ wasReturned)
  have within : target ≤ source.utf8ByteSize := by
    rw [← isTarget]
    exact (Cursor.isBoundary_of_reaches isPlace).within
  have performed : (LexerCall.reset target).perform source state.offset =
      some (.ok none, target) := by
    change Lexing.andThen (Lexing.reset target) _ source state.offset = _
    rw [Lexing.andThen, Lexing.reset, if_pos within]
    rfl
  refine ⟨?_, ?_, fun noReset => absurd rfl (noReset target), ?_⟩
  · rw [call?, performed]
  · intro offset isOffset
    refine isSound offset ?_
    rcases List.mem_cons.1 isOffset with rfl | isOld
    · exact List.mem_cons_of_mem _ wasReturned
    · exact List.mem_cons_of_mem _ isOld
  · rintro _ _ ⟨⟩

/-- Every other call is defined, and moves a lexer to a place behind its
own. -/
theorem IsSound.exists_keeps_of_ne_reset (isSound : state.IsSound source)
    (noReset : ∀ target, call ≠ .reset target) :
    ∃ outcome next, state.Keeps source call outcome next := by
  obtain ⟨cursor, isPlace, isOffset⟩ :=
    isSound state.offset List.mem_cons_self
  obtain ⟨outcome, stop, ends, outcomeSound⟩ :=
    Lexing.isSound_perform isPlace call noReset
  have isStop := isPlace.trans ends.reaches
  have forward : state.offset ≤ stop.offset := by
    rw [← isOffset]
    exact ends.reaches.offset_le
  have performed := ends.leaves
  rw [isOffset] at performed
  have kept : ∀ offset ∈ stop.offset :: state.returned,
      ∃ place, (Cursor.start source).Reaches place ∧
        place.offset = offset := by
    intro offset isKept
    rcases List.mem_cons.1 isKept with rfl | isOld
    · exact ⟨stop, isStop, rfl⟩
    · exact isSound offset (List.mem_cons_of_mem _ isOld)
  cases outcome with
  | error error =>
      refine ⟨.error error, ⟨stop.offset, state.returned⟩, ?_, kept,
        fun _ => forward, ?_⟩
      · rw [call?, performed]
      · rintro offset fault ⟨⟩
        obtain ⟨place, _, reached, isError⟩ := outcomeSound
        obtain ⟨rfl, rfl⟩ := Error.written.inj isError
        refine ⟨Cursor.isBoundary_of_reaches (isPlace.trans reached), ?_⟩
        rw [← isOffset]
        exact reached.offset_le
  | ok asked? =>
      cases asked? with
      | none =>
          refine ⟨.ok none, ⟨stop.offset, state.returned⟩, ?_, kept,
            fun _ => forward, fun _ _ failed => nomatch failed⟩
          rw [call?, performed]
      | some asked =>
          obtain rfl : asked = stop.offset := outcomeSound asked rfl
          refine ⟨.ok (some stop.offset),
            ⟨stop.offset, stop.offset :: state.returned⟩, ?_, ?_,
            fun _ => forward, fun _ _ failed => nomatch failed⟩
          · rw [call?, performed]
          · intro offset isKept
            rcases List.mem_cons.1 isKept with rfl | isKept
            · exact ⟨stop, isStop, rfl⟩
            · exact kept offset isKept

theorem IsSound.exists_keeps (isSound : state.IsSound source)
    (allowed : state.Allows call) :
    ∃ outcome next, state.Keeps source call outcome next := by
  by_cases goesBack : ∃ target, call = .reset target
  · obtain ⟨target, rfl⟩ := goesBack
    exact ⟨_, _, isSound.keeps_reset allowed⟩
  · exact isSound.exists_keeps_of_ne_reset (not_exists.1 goesBack)

/-- Whatever calls a lexer has gone through, it stands at a place of its
source. -/
theorem Reached.isSound (reached : state.Reached source) :
    state.IsSound source := by
  induction reached with
  | start =>
      exact isSound_start source
  | call _ allowed leaves inductionHypothesis =>
      obtain ⟨_, _, keeps⟩ := inductionHypothesis.exists_keeps allowed
      cases keeps.leaves.symm.trans leaves
      exact keeps.isSound

end LexerState

/-- Whatever calls a lexer has gone through, successful or not, its offset is
between two characters of its source, and every further call is defined. The
call leaves such an offset again, and none before the old one unless it goes
back. An error of the written form shows between two characters, at or behind
the old offset. -/
theorem lexer_stays_between_characters {source : String} {state : LexerState}
    (reached : state.Reached source) :
    IsBoundary source state.offset ∧
      ∀ call, state.Allows call →
        ∃ outcome next, state.call? source call = some (outcome, next) ∧
          IsBoundary source next.offset ∧
            ((∀ target, call ≠ .reset target) → state.offset ≤ next.offset) ∧
              ∀ offset fault, outcome = .error (.written offset fault) →
                IsBoundary source offset ∧ state.offset ≤ offset := by
  refine ⟨reached.isSound.isBoundary, fun call allowed => ?_⟩
  obtain ⟨outcome, next, keeps⟩ := reached.isSound.exists_keeps allowed
  exact ⟨outcome, next, keeps.leaves, keeps.isSound.isBoundary, keeps.forward,
    keeps.shows⟩

/-- In the source `1e+é`, the lexer stands before the letter after the number
has failed; a string begins there no more than a number does. -/
theorem lexer_stands_behind_failed_literal :
    LexerState.Reached "1e+é" ⟨3, []⟩ ∧
      IsBoundary "1e+é" 3 ∧
        ∃ outcome next,
          LexerState.call? "1e+é" ⟨3, []⟩ .string = some (outcome, next) ∧
            IsBoundary "1e+é" next.offset ∧ 3 ≤ next.offset := by
  have failed : LexerState.call? "1e+é" ⟨0, []⟩ (.number false) =
      some (.error (.written 3 .exponentWithoutDigits), ⟨3, []⟩) := by
    rfl
  have reached : LexerState.Reached "1e+é" ⟨3, []⟩ := by
    refine .call .start ?_ failed
    trivial
  obtain ⟨isBoundary, calls⟩ := lexer_stays_between_characters reached
  obtain ⟨outcome, next, called, isNext, forward, _⟩ := calls .string trivial
  exact ⟨reached, isBoundary, outcome, next, called, isNext,
    forward fun _ isReset => nomatch isReset⟩

end Formula
