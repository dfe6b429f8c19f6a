import Formula.Operator.Table

/-!
Recognising an operator one character at a time. A match keeps, for every
operator that begins with the characters read so far, the characters that are
still missing. It is a copy of what the table held when it began.
-/

namespace Formula

/-- The operators that agree with the characters read so far. Each candidate
holds the rest of its text. -/
structure OperatorMatch (α : Type) where
  candidates : List (List Char × α)
  consumed : Nat

namespace OperatorMatch

variable {α : Type}

/-- What is left of a candidate once `char` has been read, if it agrees. -/
def narrow (char : Char) : List Char × α → Option (List Char × α)
  | (next :: rest, value) => if next = char then some (rest, value) else none
  | ([], _) => none

/-- Reads one character and drops every candidate that disagrees. -/
def consume (state : OperatorMatch α) (char : Char) : OperatorMatch α :=
  ⟨state.candidates.filterMap (narrow char), state.consumed + 1⟩

/-- Whether some candidate goes on with `char`. -/
def hasNext (state : OperatorMatch α) (char : Char) : Bool :=
  state.candidates.any fun candidate => candidate.1.head? = some char

def isAlive (state : OperatorMatch α) : Bool :=
  !state.candidates.isEmpty

/-- The operator whose whole text has been read, longer candidates abandoned. -/
def complete? (state : OperatorMatch α) : Option α :=
  (state.candidates.find? fun candidate => candidate.1.isEmpty).map (·.2)

/-- The operator whose whole text has been read, if no longer candidate is
left. -/
def matched? (state : OperatorMatch α) : Option α :=
  if state.candidates.all fun candidate => candidate.1.isEmpty then
    state.complete?
  else
    none

/-! ## Candidates by what they miss -/

/-- The value of the candidate that misses exactly this text. -/
def missing? (state : OperatorMatch α) (rest : List Char) : Option α :=
  state.candidates.lookup rest

theorem exists_missing?_iff (state : OperatorMatch α) (rest : List Char) :
    (∃ value, state.missing? rest = some value) ↔
      ∃ value, (rest, value) ∈ state.candidates := by
  rw [← Option.isSome_iff_exists, missing?, List.lookup_isSome_iff]
  simp

theorem missing?_consume (state : OperatorMatch α) (char : Char)
    (rest : List Char) :
    (state.consume char).missing? rest = state.missing? (char :: rest) := by
  obtain ⟨candidates, consumed⟩ := state
  simp only [missing?, consume]
  induction candidates with
  | nil => rfl
  | cons candidate others inductionHypothesis =>
      obtain ⟨text, value⟩ := candidate
      cases text with
      | nil =>
          have dropped : narrow char ([], value) = none := rfl
          have differs : (char :: rest == []) = false := rfl
          rw [List.filterMap_cons_none dropped, inductionHypothesis,
            List.lookup_cons, differs]
      | cons next missing =>
          by_cases agrees : next = char
          · have kept : narrow char (next :: missing, value) =
                some (missing, value) := if_pos agrees
            rw [List.filterMap_cons_some kept, List.lookup_cons,
              List.lookup_cons, inductionHypothesis, agrees,
              List.cons_beq_cons, beq_self_eq_true, Bool.true_and]
          · have dropped : narrow char (next :: missing, value) = none :=
              if_neg agrees
            have differs : (char :: rest == next :: missing) = false := by
              rw [List.cons_beq_cons, beq_false_of_ne (Ne.symm agrees),
                Bool.false_and]
            rw [List.filterMap_cons_none dropped, inductionHypothesis,
              List.lookup_cons, differs]

theorem hasNext_iff (state : OperatorMatch α) (char : Char) :
    state.hasNext char ↔
      ∃ rest value, state.missing? (char :: rest) = some value := by
  simp only [hasNext, exists_missing?_iff, List.any_eq_true,
    decide_eq_true_iff]
  constructor
  · rintro ⟨⟨text, value⟩, isCandidate, isHead⟩
    obtain ⟨rest, rfl⟩ := List.head?_eq_some_iff.1 isHead
    exact ⟨rest, value, isCandidate⟩
  · rintro ⟨rest, value, isCandidate⟩
    exact ⟨(char :: rest, value), isCandidate, rfl⟩

theorem isAlive_iff (state : OperatorMatch α) :
    state.isAlive ↔ ∃ rest value, state.missing? rest = some value := by
  simp only [isAlive, exists_missing?_iff, Bool.not_eq_true',
    List.isEmpty_eq_false_iff_exists_mem]
  constructor
  · rintro ⟨⟨rest, value⟩, isCandidate⟩
    exact ⟨rest, value, isCandidate⟩
  · rintro ⟨rest, value, isCandidate⟩
    exact ⟨(rest, value), isCandidate⟩

theorem complete?_eq (state : OperatorMatch α) :
    state.complete? = state.missing? [] := by
  obtain ⟨candidates, consumed⟩ := state
  simp only [complete?, missing?]
  induction candidates with
  | nil => rfl
  | cons candidate others inductionHypothesis =>
      obtain ⟨text, value⟩ := candidate
      cases text with
      | nil => rfl
      | cons next missing =>
          rw [List.find?_cons_of_neg (by simp), inductionHypothesis]
          rfl

theorem matched?_eq_some_iff (state : OperatorMatch α) (value : α) :
    state.matched? = some value ↔
      state.missing? [] = some value ∧
        ∀ rest other, state.missing? rest = some other → rest = [] := by
  have onlyWhole : (state.candidates.all fun candidate =>
      candidate.1.isEmpty) ↔
        ∀ rest other, state.missing? rest = some other → rest = [] := by
    rw [List.all_eq_true]
    constructor
    · intro whole rest other found
      obtain ⟨held, isCandidate⟩ :=
        (state.exists_missing?_iff rest).1 ⟨other, found⟩
      exact List.isEmpty_iff.1 (whole _ isCandidate)
    · rintro whole ⟨rest, other⟩ isCandidate
      obtain ⟨held, found⟩ :=
        (state.exists_missing?_iff rest).2 ⟨other, isCandidate⟩
      exact List.isEmpty_iff.2 (whole rest held found)
  unfold matched?
  by_cases whole : state.candidates.all fun candidate => candidate.1.isEmpty
  · rw [if_pos whole, complete?_eq]
    exact (and_iff_left (onlyWhole.1 whole)).symm
  · rw [if_neg whole]
    constructor
    · intro isSome
      cases isSome
    · intro found
      exact absurd (onlyWhole.2 found.2) whole

end OperatorMatch

namespace OperatorTable

variable {α : Type}

/-- Whether some operator begins with `char`. -/
def startsWith (table : OperatorTable α) (char : Char) : Bool :=
  (table.groups.get? char).isSome

/-- The match after a first character, if some operator begins with it. -/
def start? (table : OperatorTable α) (char : Char) :
    Option (OperatorMatch α) :=
  (table.groups.get? char).map fun group =>
    ⟨group.entries.map fun entry => (entry.1.toList.tail, entry.2), 1⟩

theorem isSome_start? (table : OperatorTable α) (char : Char) :
    (table.start? char).isSome = table.startsWith char :=
  Option.isSome_map

theorem consumed_of_start? {table : OperatorTable α} {char : Char}
    {state : OperatorMatch α} (started : table.start? char = some state) :
    state.consumed = 1 := by
  obtain ⟨group, _, rfl⟩ := Option.map_eq_some_iff.1 started
  rfl

/-- Where all texts begin with one character, the rests tell them apart. -/
theorem lookup_tails {char : Char} (rest : List Char) :
    ∀ entries : List (String × α),
      (∀ entry ∈ entries, entry.1.toList.head? = some char) →
        (entries.map fun entry => (entry.1.toList.tail, entry.2)).lookup
            rest =
          entries.lookup (String.ofList (char :: rest))
  | [], _ => rfl
  | (text, value) :: others, begins => by
      have sameRest := lookup_tails rest others fun entry isEntry =>
        begins entry (List.mem_cons_of_mem _ isEntry)
      have head := begins (text, value) List.mem_cons_self
      obtain ⟨tail, textEq⟩ := List.head?_eq_some_iff.1 head
      have same : (rest == text.toList.tail) =
          (String.ofList (char :: rest) == text) := by
        rw [Bool.eq_iff_iff, beq_iff_eq, beq_iff_eq, ← String.toList_inj,
          String.toList_ofList, textEq, List.tail_cons, List.cons.injEq]
        exact (and_iff_right rfl).symm
      rw [List.map_cons, List.lookup_cons, List.lookup_cons, sameRest, same]

/-- After its first character, a match misses of each operator what follows
the character. -/
theorem missing?_of_start? {table : OperatorTable α} {char : Char}
    {state : OperatorMatch α} (started : table.start? char = some state)
    (rest : List Char) :
    state.missing? rest = table.get? (String.ofList (char :: rest)) := by
  obtain ⟨group, found, rfl⟩ := Option.map_eq_some_iff.1 started
  have begins : ∀ entry ∈ group.entries,
      entry.1.toList.head? = some char := by
    rintro ⟨text, value⟩ isEntry
    have isKey : (group.get? text).isSome :=
      List.lookup_isSome_iff.2 ⟨_, isEntry, beq_self_eq_true text⟩
    obtain ⟨held, isHeld⟩ := Option.isSome_iff_exists.1 isKey
    exact (table.grouped char group found).begins text held isHeld
  have head : (String.ofList (char :: rest)).toList.head? = some char := by
    rw [String.toList_ofList, List.head?_cons]
  rw [table.get?_of_head? head, OperatorTable.group, found]
  exact lookup_tails rest group.entries begins

/-- A character begins an operator if some text that begins with it is
registered. -/
theorem startsWith_iff (table : OperatorTable α) (char : Char) :
    table.startsWith char ↔
      ∃ rest value,
        table.get? (String.ofList (char :: rest)) = some value := by
  rw [startsWith, isSome_group_iff]
  constructor
  · rintro ⟨text, value, found⟩
    obtain ⟨rest, textEq⟩ :=
      List.head?_eq_some_iff.1 (table.begins_of_group found)
    refine ⟨rest, value, ?_⟩
    rw [← textEq, String.ofList_toList,
      table.get?_of_head? (table.begins_of_group found)]
    exact found
  · rintro ⟨rest, value, found⟩
    have head : (String.ofList (char :: rest)).toList.head? = some char := by
      rw [String.toList_ofList, List.head?_cons]
    rw [table.get?_of_head? head] at found
    exact ⟨_, value, found⟩

end OperatorTable

end Formula
