import Formula.Proofs.Evaluation.Answers
import Mathlib.Data.Fintype.Pigeonhole

/-!
# Chains of references

A variable may stand for a reference to another one, and so on, in any way. The
chain of a name ends with a name that stands for a value or for nothing, or it
comes back to a name of its own. Evaluation asks for the names of the chain in
order until the chain ends or no question is left.
-/

namespace Formula

namespace Variables

variable {bindings : Variables} {name last : String}

/-- The name that a name stands for, unless it stands for a value or for
nothing. -/
def next? (bindings : Variables) (name : String) : Option String :=
  match bindings.get? name with
  | some (.reference next) => some next
  | _ => none

/-- The name that the chain of a name comes to after a number of steps. -/
def link? (bindings : Variables) (name : String) : Nat → Option String
  | 0 => some name
  | steps + 1 => (bindings.link? name steps).bind bindings.next?

/-- What a chain comes to if it ends with a name. -/
def ending? (bindings : Variables) (last : String) :
    Option (Except Error Constant) :=
  match bindings.get? last with
  | some (.constant value) => some (.ok value)
  | some (.reference _) => none
  | none => some (.error (.unknownReference last))

/-! ## Links and endings -/

theorem get?_of_next? {next : String}
    (follows : bindings.next? name = some next) :
    bindings.get? name = some (.reference next) := by
  unfold next? at follows
  split at follows
  · rename_i bound
    rw [bound, Option.some.inj follows]
  · cases follows

theorem ending?_eq_ok_iff {value : Constant} :
    bindings.ending? last = some (.ok value) ↔
      bindings.get? last = some (.constant value) := by
  unfold ending?
  split <;> simp_all

theorem ending?_eq_unknownReference_iff {missing : String} :
    bindings.ending? last = some (.error (.unknownReference missing)) ↔
      bindings.get? last = none ∧ last = missing := by
  unfold ending?
  split <;> simp_all

theorem eq_ok_or_unknownReference_of_ending?
    {outcome : Except Error Constant}
    (ends : bindings.ending? last = some outcome) :
    (∃ value, outcome = .ok value) ∨
      outcome = .error (.unknownReference last) := by
  unfold ending? at ends
  split at ends
  · exact .inl ⟨_, (Option.some.inj ends).symm⟩
  · cases ends
  · exact .inr (Option.some.inj ends).symm

theorem next?_of_ending? {outcome : Except Error Constant}
    (ends : bindings.ending? last = some outcome) :
    bindings.next? last = none := by
  cases follows : bindings.next? last with
  | none =>
      rfl
  | some next =>
      rw [ending?, get?_of_next? follows] at ends
      cases ends

/-- A chain goes on as the chain of the next name. -/
theorem link?_succ_of_next? {next : String}
    (follows : bindings.next? name = some next) (steps : Nat) :
    bindings.link? name (steps + 1) = bindings.link? next steps := by
  induction steps with
  | zero =>
      exact follows
  | succ steps inductionHypothesis =>
      rw [link?, inductionHypothesis]
      rfl

theorem link?_eq_none_of_le {steps later : Nat} (notLater : steps ≤ later)
    (ended : bindings.link? name steps = none) :
    bindings.link? name later = none := by
  induction notLater with
  | refl =>
      exact ended
  | step _ inductionHypothesis =>
      rw [link?, inductionHypothesis]
      rfl

theorem link?_eq_none_of_ending? {steps later : Nat}
    {outcome : Except Error Constant}
    (comes : bindings.link? name steps = some last)
    (ends : bindings.ending? last = some outcome) (isLater : steps < later) :
    bindings.link? name later = none := by
  apply link?_eq_none_of_le isLater
  rw [link?, comes]
  exact next?_of_ending? ends

/-- A chain comes to something within some questions if it ends with the name
that one of them asks for. -/
def ComesTo (bindings : Variables) (name : String) (hops : Nat)
    (outcome : Except Error Constant) : Prop :=
  ∃ steps < hops, ∃ last, bindings.link? name steps = some last ∧
    bindings.ending? last = some outcome

theorem ComesTo.succ {hops : Nat} {next : String}
    {outcome : Except Error Constant}
    (follows : bindings.next? name = some next)
    (comes : bindings.ComesTo next hops outcome) :
    bindings.ComesTo name (hops + 1) outcome := by
  obtain ⟨steps, inTime, last, isLast, ends⟩ := comes
  refine ⟨steps + 1, Nat.succ_lt_succ inTime, last, ?_, ends⟩
  rw [link?_succ_of_next? follows]
  exact isLast

theorem ComesTo.unique {hops : Nat} {outcome other : Except Error Constant}
    (comes : bindings.ComesTo name hops outcome)
    (comesToo : bindings.ComesTo name hops other) : outcome = other := by
  obtain ⟨steps, _, last, isLast, ends⟩ := comes
  obtain ⟨otherSteps, _, otherLast, isOtherLast, endsToo⟩ := comesToo
  rcases Nat.lt_trichotomy steps otherSteps with isLater | same | isEarlier
  · rw [link?_eq_none_of_ending? isLast ends isLater] at isOtherLast
    cases isOtherLast
  · rw [← same, isLast] at isOtherLast
    rw [← Option.some.inj isOtherLast, ends] at endsToo
    exact Option.some.inj endsToo
  · rw [link?_eq_none_of_ending? isOtherLast endsToo isEarlier] at isLast
    cases isLast

theorem not_comesTo_of_link? {hops : Nat} {outcome : Except Error Constant}
    (goesOn : bindings.link? name hops = some last) :
    ¬ bindings.ComesTo name hops outcome := by
  intro comes
  obtain ⟨steps, inTime, ending, isLast, ends⟩ := comes
  rw [link?_eq_none_of_ending? isLast ends inTime] at goesOn
  cases goesOn

/-! ## Chains without an end -/

/-- The chain of a name comes back to one of its names. -/
def Returns (bindings : Variables) (name : String) : Prop :=
  ∃ earlier later, earlier < later ∧
    bindings.link? name earlier = bindings.link? name later ∧
    (bindings.link? name later).isSome

/-- A chain that comes back goes on for ever. -/
theorem Returns.isSome_link? (returns : bindings.Returns name) (steps : Nat) :
    (bindings.link? name steps).isSome := by
  obtain ⟨earlier, later, isLater, same, reached⟩ := returns
  have shifted (more : Nat) : bindings.link? name (earlier + more) =
      bindings.link? name (later + more) := by
    induction more with
    | zero =>
        exact same
    | succ more inductionHypothesis =>
        rw [← Nat.add_assoc, ← Nat.add_assoc, link?, link?,
          inductionHypothesis]
  -- The first step after an end would come after the return, and a period
  -- before it there would be an end already.
  induction steps using Nat.strong_induction_on with
  | h steps inductionHypothesis =>
      by_cases isReached : steps ≤ later
      · by_contra isOver
        rw [link?_eq_none_of_le isReached
          (Option.not_isSome_iff_eq_none.1 isOver)] at reached
        cases reached
      · obtain ⟨more, isSum⟩ := Nat.exists_eq_add_of_lt (Nat.not_le.1 isReached)
        rw [isSum, Nat.add_assoc, ← shifted]
        exact inductionHypothesis _ (by omega)

theorem mem_keys_of_next? {next : String}
    (follows : bindings.next? name = some next) :
    name ∈ bindings.entries.map Prod.fst := by
  obtain ⟨before, after, isSplit, _⟩ :=
    List.lookup_eq_some_iff.1 (get?_of_next? follows)
  rw [isSplit, List.map_append]
  exact List.mem_append_right _ List.mem_cons_self

/-- A chain that goes on for ever comes back, for only finitely many names stand
for something. -/
theorem returns_of_isSome_link?
    (endless : ∀ steps, (bindings.link? name steps).isSome) :
    bindings.Returns name := by
  have isKey (steps : Nat) : (bindings.link? name steps).get (endless steps) ∈
      bindings.entries.map Prod.fst := by
    obtain ⟨link, isLink⟩ := Option.isSome_iff_exists.1 (endless steps)
    obtain ⟨next, isNext⟩ :=
      Option.isSome_iff_exists.1 (endless (steps + 1))
    rw [link?, isLink, Option.bind_some] at isNext
    simp only [isLink, Option.get_some]
    exact mem_keys_of_next? isNext
  let key (steps : Nat) : {key // key ∈ bindings.entries.map Prod.fst} :=
    ⟨_, isKey steps⟩
  obtain ⟨first, second, different, same⟩ :=
    Finite.exists_ne_map_eq_of_infinite key
  have sameLink : bindings.link? name first = bindings.link? name second :=
    Option.get_inj.1 (congrArg Subtype.val same)
  rcases Nat.lt_or_gt_of_ne different with isLater | isEarlier
  · exact ⟨first, second, isLater, sameLink, endless second⟩
  · exact ⟨second, first, isEarlier, sameLink.symm, endless first⟩

/-! ## Following a chain -/

theorem exists_next?_or_ending? (bindings : Variables) (name : String) :
    (∃ next, bindings.next? name = some next) ∨
      ∃ outcome, bindings.ending? name = some outcome := by
  unfold next? ending?
  rcases bindings.get? name with none | value | next
  · exact .inr ⟨_, rfl⟩
  · exact .inr ⟨_, rfl⟩
  · exact .inl ⟨_, rfl⟩

section Course

variable (limit hops : Nat)

theorem course_of_ending? {outcome : Except Error Constant}
    (ends : bindings.ending? name = some outcome) :
    (Operand.reference name).course bindings.answers limit (hops + 1) () =
      ⟨outcome, [name], ()⟩ := by
  unfold ending? at ends
  simp only [Operand.course, answers]
  split at ends
  · rename_i value bound
    cases ends
    cases hops <;> simp [bound, Operand.course, Course.finished]
  · cases ends
  · rename_i unbound
    cases ends
    simp [unbound]

theorem course_of_next? {next : String}
    (follows : bindings.next? name = some next) :
    let following :=
      (Operand.reference next).course bindings.answers limit hops ()
    (Operand.reference name).course bindings.answers limit (hops + 1) () =
      ⟨following.result, name :: following.asked, following.state⟩ := by
  simp only [Operand.course, answers, get?_of_next? follows]

end Course

/-- A reference that may be followed for some hops comes to what its chain
comes to, or stops at the name for which no question is left. -/
theorem result_course_reference (bindings : Variables) (limit hops : Nat)
    (name : String) :
    let course :=
      (Operand.reference name).course bindings.answers limit hops ()
    bindings.ComesTo name hops course.result ∨
      ∃ last, bindings.link? name hops = some last ∧
        course.result = .error (.malformed (.endlessReference last limit)) := by
  induction hops generalizing name with
  | zero =>
      exact .inr ⟨name, rfl, rfl⟩
  | succ hops inductionHypothesis =>
      rcases bindings.exists_next?_or_ending? name with
        ⟨next, follows⟩ | ⟨outcome, ends⟩
      · rw [course_of_next? limit hops follows, link?_succ_of_next? follows]
        rcases inductionHypothesis next with comes | stops
        · exact .inl (comes.succ follows)
        · exact .inr stops
      · rw [course_of_ending? limit hops ends]
        exact .inl ⟨0, Nat.succ_pos hops, name, rfl, ends⟩

/-- The questions are the links of the chain, one a hop. -/
theorem getElem?_asked_course_reference (bindings : Variables)
    (limit hops : Nat) (name : String) (steps : Nat) :
    ((Operand.reference name).course bindings.answers limit hops
        ()).asked[steps]? =
      if steps < hops then bindings.link? name steps else none := by
  induction hops generalizing name steps with
  | zero =>
      rfl
  | succ hops inductionHypothesis =>
      rcases bindings.exists_next?_or_ending? name with
        ⟨next, follows⟩ | ⟨outcome, ends⟩
      · rw [course_of_next? limit hops follows]
        cases steps with
        | zero =>
            rfl
        | succ steps =>
            simp only [List.getElem?_cons_succ, inductionHypothesis,
              link?_succ_of_next? follows, Nat.succ_lt_succ_iff]
      · rw [course_of_ending? limit hops ends]
        cases steps with
        | zero =>
            rfl
        | succ steps =>
            rw [link?_eq_none_of_ending? rfl ends (Nat.succ_pos steps)]
            simp

/-- Evaluating a reference alone follows it for as many hops as operators may
be nested. -/
theorem evaluate_reference (bindings : Variables) (members : ObjectMembers)
    {limit : Nat} (allowed : 1 ≤ limit) (name : String) :
    let run := bindings.evaluate members limit [.operand (.reference name)]
    let course :=
      (Operand.reference name).course bindings.answers limit limit ()
    run.result = course.result ∧ run.state.reverse = course.asked := by
  intro run course
  have tracked : run.outcome =
      ((Expression.operand (.reference name)).course members bindings.answers
        limit 0 ()).tracked (fun _ asked => asked.reverse) [] :=
    outcome_reduce_evaluation_tracked bindings.tracks_answers members limit
      (.operand (.reference name)) () []
  rw [Expression.course, if_neg (Nat.not_le.2 allowed)] at tracked
  have sameState : run.state = course.asked.reverse :=
    congrArg Prod.snd tracked
  refine ⟨congrArg Prod.fst tracked, ?_⟩
  rw [sameState, List.reverse_reverse]

section Evaluate

variable (members : ObjectMembers) {limit : Nat} (allowed : 1 ≤ limit)

include allowed

theorem comesTo_evaluate_or_stops (bindings : Variables) (name : String) :
    let run := bindings.evaluate members limit [.operand (.reference name)]
    bindings.ComesTo name limit run.result ∨
      ∃ last, bindings.link? name limit = some last ∧
        run.result = .error (.malformed (.endlessReference last limit)) := by
  intro run
  rw [(bindings.evaluate_reference members allowed name).1]
  exact bindings.result_course_reference limit limit name

theorem result_evaluate_eq_iff_comesTo (bindings : Variables) (name : String)
    {outcome : Except Error Constant}
    (isProper : ∀ fault, outcome ≠ .error (.malformed fault)) :
    (bindings.evaluate members limit [.operand (.reference name)]).result =
        outcome ↔
      bindings.ComesTo name limit outcome := by
  rcases bindings.comesTo_evaluate_or_stops members allowed name with
    comes | ⟨last, goesOn, stops⟩
  · constructor
    · intro same
      rw [← same]
      exact comes
    · intro comesToo
      exact comes.unique comesToo
  · rw [stops]
    exact iff_of_false (isProper _).symm (not_comesTo_of_link? goesOn)

theorem getElem?_asked_evaluate (bindings : Variables) (name : String)
    (steps : Nat) :
    (bindings.evaluate members limit
        [.operand (.reference name)]).state.reverse[steps]? =
      if steps < limit then bindings.link? name steps else none := by
  rw [(bindings.evaluate_reference members allowed name).2]
  exact bindings.getElem?_asked_course_reference limit limit name steps

end Evaluate

/-- On a chain that comes back every limit is reached. -/
theorem Returns.evaluate_malformed (returns : bindings.Returns name)
    (members : ObjectMembers) (limit : Nat) :
    let run := bindings.evaluate members limit [.operand (.reference name)]
    (∃ fault, run.result = .error (.malformed fault)) ∧
      run.state.length = limit := by
  intro run
  by_cases allowed : 1 ≤ limit
  · constructor
    · rcases bindings.comesTo_evaluate_or_stops members allowed name with
        comes | ⟨last, _, stops⟩
      · obtain ⟨last, goesOn⟩ :=
          Option.isSome_iff_exists.1 (returns.isSome_link? limit)
        exact absurd comes (not_comesTo_of_link? goesOn)
      · exact ⟨_, stops⟩
    · have asked (steps : Nat) :
          run.state.reverse.length ≤ steps ↔ limit ≤ steps := by
        rw [← List.getElem?_eq_none_iff,
          getElem?_asked_evaluate members allowed bindings name]
        split
        · rename_i inTime
          have goesOn := Option.isSome_iff_ne_none.1
            (returns.isSome_link? steps)
          exact iff_of_false goesOn (Nat.not_le.2 inTime)
        · rename_i late
          exact iff_of_true rfl (Nat.not_lt.1 late)
      rw [← List.length_reverse]
      exact Nat.le_antisymm ((asked limit).2 (Nat.le_refl _))
        ((asked _).1 (Nat.le_refl _))
  · obtain rfl := Nat.eq_zero_of_not_pos allowed
    have refused : run.outcome =
        (.error (.malformed (.nestedTooDeep 0)), []) :=
      outcome_reduce_evaluation_tracked bindings.tracks_answers members 0
        (.operand (.reference name)) () []
    exact ⟨⟨_, congrArg Prod.fst refused⟩,
      congrArg (fun outcome => outcome.2.length) refused⟩

end Variables

/-- The reference to a name is followed along the chain of that name. It comes
to a value or to an unknown name exactly if the chain ends with one that stands
for that value, or with that name, within as many questions as are allowed;
otherwise it is malformed, with the name that the next question would be about.
The questions are the names of the chain in order, as many as are allowed. A
chain goes on for ever exactly if it comes back to a name, and then every limit
is reached, after as many questions. -/
theorem reference_chain_followed_exactly (members : ObjectMembers)
    (bindings : Variables) (name : String) :
    let run (limit : Nat) :=
      bindings.evaluate members limit [.operand (.reference name)]
    (∀ limit, 1 ≤ limit →
      (∀ value, (run limit).result = .ok value ↔
        ∃ steps < limit, ∃ last, bindings.link? name steps = some last ∧
          bindings.get? last = some (.constant value)) ∧
      (∀ missing, (run limit).result = .error (.unknownReference missing) ↔
        ∃ steps < limit, bindings.link? name steps = some missing ∧
          bindings.get? missing = none) ∧
      ((∃ value, (run limit).result = .ok value) ∨
        (∃ missing,
          (run limit).result = .error (.unknownReference missing)) ∨
        ∃ last, bindings.link? name limit = some last ∧
          (run limit).result =
            .error (.malformed (.endlessReference last limit))) ∧
      ∀ steps, (run limit).state.reverse[steps]? =
        if steps < limit then bindings.link? name steps else none) ∧
    (bindings.Returns name ↔
      ∀ steps, (bindings.link? name steps).isSome) ∧
    (bindings.Returns name → ∀ limit,
      (∃ fault, (run limit).result = .error (.malformed fault)) ∧
        (run limit).state.length = limit) := by
  intro run
  refine ⟨fun limit allowed => ⟨fun value => ?_, fun missing => ?_, ?_,
    Variables.getElem?_asked_evaluate members allowed bindings name⟩,
    ⟨Variables.Returns.isSome_link?, Variables.returns_of_isSome_link?⟩,
    fun returns => returns.evaluate_malformed members⟩
  · rw [Variables.result_evaluate_eq_iff_comesTo members allowed bindings name
      (by simp)]
    simp only [Variables.ComesTo, Variables.ending?_eq_ok_iff]
  · rw [Variables.result_evaluate_eq_iff_comesTo members allowed bindings name
      (by simp)]
    simp only [Variables.ComesTo, Variables.ending?_eq_unknownReference_iff]
    constructor
    · intro comes
      obtain ⟨steps, inTime, last, isLast, unbound, isMissing⟩ := comes
      rw [isMissing] at isLast unbound
      exact ⟨steps, inTime, isLast, unbound⟩
    · intro comes
      obtain ⟨steps, inTime, isLast, unbound⟩ := comes
      exact ⟨steps, inTime, missing, isLast, unbound, rfl⟩
  · rcases bindings.comesTo_evaluate_or_stops members allowed name with
      ⟨steps, _, last, _, ends⟩ | stops
    · rcases Variables.eq_ok_or_unknownReference_of_ending? ends with
        isValue | isUnknown
      · exact .inl isValue
      · exact .inr (.inl ⟨last, isUnknown⟩)
    · exact .inr (.inr stops)

/-- Of three names that lead to a value, the third is only asked for with a
limit of three; a name that stands for itself reaches every limit. -/
theorem chain_of_three_and_self_reference :
    let bindings : Variables :=
      .ofList [("a", .reference "b"), ("b", .reference "c"),
        ("c", .constant .null), ("x", .reference "x")]
    let run (name : String) (limit : Nat) :=
      bindings.evaluate (fun _ _ => none) limit [.operand (.reference name)]
    (run "a" 3).result = .ok .null ∧
      (run "a" 2).result = .error (.malformed (.endlessReference "c" 2)) ∧
      (run "x" 128).state.length = 128 := by
  intro bindings run
  have followed := reference_chain_followed_exactly (fun _ _ => none) bindings
  have inTime : (run "a" 3).result = .ok .null :=
    (((followed "a").1 3 (by decide)).1 .null).2
      ⟨2, by decide, "c", rfl, rfl⟩
  have late : (run "a" 2).result =
      .error (.malformed (.endlessReference "c" 2)) := by
    decide +kernel
  have returns : bindings.Returns "x" := ⟨0, 1, by decide, rfl, rfl⟩
  exact ⟨inTime, late, ((followed "x").2.2 returns 128).2⟩

end Formula
