import Formula.Proofs.Expression.Prefix

/-!
# Reduction by recursion

Reading a list of tokens with waiting frames gives the same as recursion on the
tree that the list is the listing of. Both are stated for any algebra, so that
evaluation and typing share the argument.
-/

namespace Formula

variable {σ α β γ : Type}

abbrev Outcome (σ α : Type) := Except Error α × σ

namespace Outcome

/-- Goes on with a result; an error stays as it is. -/
def andThen (outcome : Outcome σ α) (next : α → σ → Outcome σ β) :
    Outcome σ β :=
  match outcome with
  | (.ok value, state) => next value state
  | (.error error, state) => (.error error, state)

theorem andThen_assoc (outcome : Outcome σ α) (next : α → σ → Outcome σ β)
    (last : β → σ → Outcome σ γ) :
    (outcome.andThen next).andThen last =
      outcome.andThen fun value state => (next value state).andThen last := by
  obtain ⟨_ | _, _⟩ := outcome <;> rfl

theorem andThen_congr {outcome : Outcome σ α}
    {next other : α → σ → Outcome σ β}
    (agree : ∀ value state,
      outcome = (.ok value, state) → next value state = other value state) :
    outcome.andThen next = outcome.andThen other := by
  obtain ⟨error | value, state⟩ := outcome
  · rfl
  · exact agree value state rfl

theorem andThen_eq_ok_iff {outcome : Outcome σ α}
    {next : α → σ → Outcome σ β} {value : β} {final : σ} :
    outcome.andThen next = (.ok value, final) ↔
      ∃ first state, outcome = (.ok first, state) ∧
        next first state = (.ok value, final) := by
  obtain ⟨error | first, state⟩ := outcome
  · simp [andThen]
  · constructor
    · intro equality
      exact ⟨first, state, rfl, equality⟩
    · rintro ⟨_, _, ⟨⟩, equality⟩
      exact equality

end Outcome

def Reduction.outcome (reduction : Reduction σ α) : Outcome σ α :=
  (reduction.result, reduction.state)

namespace Algebra

/-- Selects from an owner what the right side of a selection names. -/
def selectNamed (algebra : Algebra σ α) (owner : α) :
    Expression → Except Error α
  | .operand name => algebra.member owner name
  | _ => .error (.malformed .missingMemberName)

def decided? (algebra : Algebra σ α) : BinaryOperator → α → Option α
  | .logical operator, left => algebra.decides? operator left
  | _, _ => none

/-- The meaning of a tree below `depth` operators. The left side comes before
the right one, which a logical operator may leave out and a selection does not
interpret. -/
def interpret (algebra : Algebra σ α) (limit : Nat) (expression : Expression)
    (depth : Nat) (state : σ) : Outcome σ α :=
  if limit ≤ depth then (.error (tooDeep limit), state)
  else
    match expression with
    | .operand operand => algebra.operand operand state
    | .unary operator inner =>
        (algebra.interpret limit inner (depth + 1) state).andThen
          fun value state => (algebra.unary operator value, state)
    | .binary .member owner name =>
        (algebra.interpret limit owner (depth + 1) state).andThen
          fun value state => (algebra.selectNamed value name, state)
    | .binary operator left right =>
        (algebra.interpret limit left (depth + 1) state).andThen
          fun first state =>
            match algebra.decided? operator first with
            | some result => (.ok result, state)
            | none =>
                (algebra.interpret limit right (depth + 1) state).andThen
                  fun second state =>
                    (algebra.binary operator first second, state)

theorem lt_limit_of_interpret_eq_ok {algebra : Algebra σ α} {limit : Nat}
    {expression : Expression} {depth : Nat} {state final : σ} {value : α}
    (interpreted :
      algebra.interpret limit expression depth state = (.ok value, final)) :
    depth < limit := by
  refine Nat.lt_of_not_le fun tooHigh => ?_
  unfold interpret at interpreted
  simp [tooHigh] at interpreted

variable (algebra : Algebra σ α) (limit : Nat)

theorem interpret_of_limit_le (expression : Expression) {depth : Nat}
    (tooHigh : limit ≤ depth) (state : σ) :
    algebra.interpret limit expression depth state =
      (.error (tooDeep limit), state) := by
  rw [interpret.eq_def, if_pos tooHigh]

theorem interpret_binary {operator : BinaryOperator}
    (notMember : operator ≠ .member) (left right : Expression) {depth : Nat}
    (inside : ¬ limit ≤ depth) (state : σ) :
    algebra.interpret limit (.binary operator left right) depth state =
      (algebra.interpret limit left (depth + 1) state).andThen
        fun first state =>
          match algebra.decided? operator first with
          | some result => (.ok result, state)
          | none =>
              (algebra.interpret limit right (depth + 1) state).andThen
                fun second state =>
                  (algebra.binary operator first second, state) := by
  rw [interpret, if_neg inside]
  exact notMember

/-! ## Frames -/

/-- What follows once an operand of the innermost frame has a result. -/
def proceed (frames : List (Frame α)) (depth : Nat) (rest : List Token)
    (result : α) (state : σ) : Reduction σ α :=
  match algebra.resume limit depth result rest frames with
  | .failed error remaining => ⟨.error error, remaining, state⟩
  | .complete final remaining => ⟨.ok final, remaining, state⟩
  | .waiting waitingFrames waitingDepth remaining =>
      algebra.reduceFrom limit waitingFrames waitingDepth state remaining

theorem reduceFrom_operand_of_ok (frames : List (Frame α)) {depth : Nat}
    (inside : ¬ limit ≤ depth) {operand : Operand} {state next : σ}
    {result : α} (taken : algebra.operand operand state = (.ok result, next))
    (rest : List Token) :
    algebra.reduceFrom limit frames depth state (.operand operand :: rest) =
      algebra.proceed limit frames depth rest result next := by
  rw [reduceFrom.eq_def, if_neg inside]
  simp only [taken, proceed]
  split <;> simp [*]

/-- The outcome for the waiting frames once an operand has a result. -/
def outcomeAfter (frames : List (Frame α)) (depth : Nat) (rest : List Token)
    (result : α) (state : σ) : Outcome σ α :=
  (algebra.proceed limit frames depth rest result state).outcome

theorem outcome_reduceFrom_of_limit_le (frames : List (Frame α)) {depth : Nat}
    (tooHigh : limit ≤ depth) (state : σ) (tokens : List Token) :
    (algebra.reduceFrom limit frames depth state tokens).outcome =
      (.error (tooDeep limit), state) := by
  rw [reduceFrom.eq_def, if_pos tooHigh]
  rfl

theorem outcome_reduceFrom_operand (frames : List (Frame α)) {depth : Nat}
    (inside : ¬ limit ≤ depth) (state : σ) (operand : Operand)
    (rest : List Token) :
    (algebra.reduceFrom limit frames depth state
        (.operand operand :: rest)).outcome =
      Outcome.andThen (algebra.operand operand state)
        (algebra.outcomeAfter limit frames depth rest) := by
  cases taken : algebra.operand operand state with
  | mk result next =>
      cases result with
      | error error =>
          rw [reduceFrom, if_neg inside]
          simp only [taken]
          rfl
      | ok value =>
          rw [reduceFrom_operand_of_ok _ _ _ inside taken]
          rfl

theorem reduceFrom_unary (frames : List (Frame α)) {depth : Nat}
    (inside : ¬ limit ≤ depth) (state : σ) (operator : UnaryOperator)
    (rest : List Token) :
    algebra.reduceFrom limit frames depth state (.unary operator :: rest) =
      algebra.reduceFrom limit (.unary operator :: frames) (depth + 1) state
        rest := by
  rw [reduceFrom, if_neg inside]

theorem reduceFrom_binary (frames : List (Frame α)) {depth : Nat}
    (inside : ¬ limit ≤ depth) (state : σ) (operator : BinaryOperator)
    (rest : List Token) :
    algebra.reduceFrom limit frames depth state (.binary operator :: rest) =
      algebra.reduceFrom limit (.left operator :: frames) (depth + 1) state
        rest := by
  rw [reduceFrom, if_neg inside]

theorem outcomeAfter_unary (frames : List (Frame α)) (depth : Nat)
    (rest : List Token) (operator : UnaryOperator) (value : α) (state : σ) :
    algebra.outcomeAfter limit (.unary operator :: frames) (depth + 1) rest
        value state =
      Outcome.andThen (algebra.unary operator value, state)
        (algebra.outcomeAfter limit frames depth rest) := by
  simp only [outcomeAfter, proceed, resume, Nat.add_sub_cancel]
  cases algebra.unary operator value <;> rfl

theorem outcomeAfter_right (frames : List (Frame α)) (depth : Nat)
    (rest : List Token) (operator : BinaryOperator) (left right : α)
    (state : σ) :
    algebra.outcomeAfter limit (.right operator left :: frames) (depth + 1)
        rest right state =
      Outcome.andThen (algebra.binary operator left right, state)
        (algebra.outcomeAfter limit frames depth rest) := by
  simp only [outcomeAfter, proceed, resume, Nat.add_sub_cancel]
  cases algebra.binary operator left right <;> rfl

/-- A selection takes the name that follows without interpreting it. -/
theorem outcomeAfter_left_member (frames : List (Frame α)) {depth : Nat}
    (inside : depth + 1 < limit) (owner : α) (state : σ) (name : Expression)
    (rest : List Token) :
    algebra.outcomeAfter limit (.left .member :: frames) (depth + 1)
        (name.tokens ++ rest) owner state =
      Outcome.andThen (algebra.selectNamed owner name, state)
        (algebra.outcomeAfter limit frames depth rest) := by
  simp only [outcomeAfter, proceed, resume, Nat.not_le_of_lt inside, if_false]
  cases name with
  | operand operand =>
      simp only [Expression.tokens, List.singleton_append, memberName,
        selectNamed, Nat.add_sub_cancel]
      cases algebra.member owner operand <;> rfl
  | unary operator inner =>
      rfl
  | binary operator left right =>
      rfl

/-- A left side that decides the result skips the listing of the right one. -/
theorem outcomeAfter_left (frames : List (Frame α)) (depth : Nat)
    {operator : BinaryOperator} (notMember : operator ≠ .member) (first : α)
    (state : σ) (right : Expression) (rest : List Token) :
    algebra.outcomeAfter limit (.left operator :: frames) (depth + 1)
        (right.tokens ++ rest) first state =
      match algebra.decided? operator first with
      | some result =>
          algebra.outcomeAfter limit frames depth rest result state
      | none =>
          (algebra.reduceFrom limit (.right operator first :: frames)
            (depth + 1) state (right.tokens ++ rest)).outcome := by
  cases operator with
  | member =>
      exact absurd rfl notMember
  | logical operator =>
      simp only [outcomeAfter, proceed, resume, decided?]
      cases algebra.decides? operator first with
      | none =>
          rfl
      | some result =>
          simp only [discardExpression_tokens_append, Nat.add_sub_cancel]
  | bitwise | equality | relational | shift | arithmetic =>
      rfl

/-- Reading the listing of a tree hands the meaning of the tree to the waiting
frames, whatever follows the listing. -/
theorem outcome_reduceFrom_tokens_append (expression : Expression) :
    ∀ (frames : List (Frame α)) (depth : Nat) (state : σ)
      (rest : List Token),
      (algebra.reduceFrom limit frames depth state
          (expression.tokens ++ rest)).outcome =
        (algebra.interpret limit expression depth state).andThen
          (algebra.outcomeAfter limit frames depth rest) := by
  induction expression with
  | operand operand =>
      intro frames depth state rest
      by_cases tooHigh : limit ≤ depth
      · rw [outcome_reduceFrom_of_limit_le _ _ _ tooHigh,
          interpret_of_limit_le _ _ _ tooHigh]
        rfl
      · rw [interpret, if_neg tooHigh]
        exact algebra.outcome_reduceFrom_operand limit frames tooHigh state
          operand rest
  | unary operator inner inductionHypothesis =>
      intro frames depth state rest
      by_cases tooHigh : limit ≤ depth
      · rw [outcome_reduceFrom_of_limit_le _ _ _ tooHigh,
          interpret_of_limit_le _ _ _ tooHigh]
        rfl
      · rw [interpret, if_neg tooHigh, Outcome.andThen_assoc,
          Expression.tokens, List.cons_append,
          reduceFrom_unary _ _ _ tooHigh, inductionHypothesis]
        refine Outcome.andThen_congr fun value state _ => ?_
        exact algebra.outcomeAfter_unary limit frames depth rest operator
          value state
  | binary operator left right leftHypothesis rightHypothesis =>
      intro frames depth state rest
      by_cases tooHigh : limit ≤ depth
      · rw [outcome_reduceFrom_of_limit_le _ _ _ tooHigh,
          interpret_of_limit_le _ _ _ tooHigh]
        rfl
      rw [Expression.tokens, List.cons_append, List.append_assoc,
        reduceFrom_binary _ _ _ tooHigh, leftHypothesis]
      by_cases isMember : operator = .member
      · subst isMember
        rw [interpret, if_neg tooHigh, Outcome.andThen_assoc]
        refine Outcome.andThen_congr fun owner state taken => ?_
        exact algebra.outcomeAfter_left_member limit frames
          (lt_limit_of_interpret_eq_ok taken) owner state right rest
      · rw [interpret_binary _ _ isMember _ _ tooHigh,
          Outcome.andThen_assoc]
        refine Outcome.andThen_congr fun first state _ => ?_
        rw [outcomeAfter_left _ _ _ _ isMember]
        cases algebra.decided? operator first with
        | some result =>
            rfl
        | none =>
            rw [rightHypothesis, Outcome.andThen_assoc]
            refine Outcome.andThen_congr fun second state _ => ?_
            exact algebra.outcomeAfter_right limit frames depth rest operator
              first second state

/-! ## Complete lists -/

/-- The expressions that frames lack besides the one being read. -/
def missing : List (Frame α) → Nat
  | [] => 0
  | .left _ :: frames => missing frames + 1
  | _ :: frames => missing frames

theorem skipExpressions_of_memberName {owner value : α}
    {tokens rest : List Token} (count : Nat)
    (named : algebra.memberName owner tokens = (.ok value, rest)) :
    skipExpressions (count + 1) tokens = skipExpressions count rest := by
  unfold memberName at named
  split at named
  · simp at named
  · simp only [Prod.mk.injEq] at named
    obtain ⟨_, rfl⟩ := named
    rfl
  · simp at named

/-- The tokens that a resumption has read are as many expressions as were
lacking, but for those that the frames it leaves still lack. -/
def Reads (lacked : Nat) (tokens : List Token) : Resumption α → Prop
  | .failed _ _ => True
  | .complete _ rest => skipExpressions lacked tokens = some rest
  | .waiting waiting _ rest =>
      skipExpressions lacked tokens =
        skipExpressions (missing waiting + 1) rest

theorem Reads.of_eq {lacked other : Nat} {tokens others : List Token}
    {resumption : Resumption α} (reads : Reads lacked tokens resumption)
    (equality :
      skipExpressions other others = skipExpressions lacked tokens) :
    Reads other others resumption := by
  cases resumption with
  | failed =>
      trivial
  | complete | waiting =>
      exact equality.trans reads

/-- What the waiting frames read is what they lacked. -/
theorem reads_resume (frames : List (Frame α)) (depth : Nat) (result : α)
    (tokens : List Token) :
    Reads (missing frames) tokens
      (algebra.resume limit depth result tokens frames) := by
  fun_induction resume algebra limit depth result tokens frames with
  | case1 =>
      simp [Reads, missing, skipExpressions]
  | case11 | case12 =>
      exact rfl
  | case2 _ _ _ _ _ _ _ inductionHypothesis =>
      exact inductionHypothesis
  | case4 _ _ _ _ _ _ _ _ inductionHypothesis =>
      exact inductionHypothesis
  | case3 | case5 | case6 | case8 | case10 =>
      trivial
  | case7 _ _ _ frames _ _ _ named inductionHypothesis =>
      exact inductionHypothesis.of_eq
        (algebra.skipExpressions_of_memberName (missing frames) named)
  | case9 _ _ _ _ frames _ _ _ _ discarded inductionHypothesis =>
      exact inductionHypothesis.of_eq
        (skipExpressions_succ_of_one
          (skipExpressions_of_discardPending discarded) (missing frames))

/-- A reduction that succeeds has read the expressions that its frames lacked
and the one being read. -/
theorem skipExpressions_of_reduceFrom (frames : List (Frame α)) (depth : Nat)
    (state : σ) (tokens : List Token) {value : α}
    (reduced :
      (algebra.reduceFrom limit frames depth state tokens).result =
        .ok value) :
    skipExpressions (missing frames + 1) tokens =
      some (algebra.reduceFrom limit frames depth state tokens).rest := by
  fun_induction reduceFrom algebra limit frames depth state tokens with
  | case1 | case2 | case5 | case6 =>
      cases reduced
  | case3 _ _ _ _ _ _ inductionHypothesis =>
      exact inductionHypothesis reduced
  | case4 _ _ _ _ _ _ inductionHypothesis =>
      exact inductionHypothesis reduced
  | case7 frames depth _ _ _ rest result _ _ _ _ resumed =>
      have reads := algebra.reads_resume limit frames depth result rest
      rw [resumed] at reads
      exact reads
  | case8 frames depth _ _ _ rest result _ _ _ _ _ resumed
      inductionHypothesis =>
      have reads := algebra.reads_resume limit frames depth result rest
      rw [resumed] at reads
      exact reads.trans (inductionHypothesis reduced)

/-- A list that reduces to a result is the listing of a tree. -/
theorem exists_eq_tokens_of_reduce {state : σ} {tokens : List Token}
    {value : α}
    (reduced : (algebra.reduce limit state tokens).result = .ok value) :
    ∃ expression : Expression, tokens = expression.tokens := by
  unfold reduce at reduced
  split at reduced
  · cases reduced
  dsimp only at reduced
  split at reduced
  · rename_i failed
    rw [failed] at reduced
    cases reduced
  split at reduced
  · rename_i taken emptyRest
    have skipped :=
      algebra.skipExpressions_of_reduceFrom limit [] 0 state tokens taken
    rw [List.isEmpty_iff.1 emptyRest] at skipped
    simpa using exists_tokens_append_of_skipExpressions_one skipped
  · cases reduced

/-- Reducing the listing of a tree is interpreting the tree. -/
theorem outcome_reduce_tokens (expression : Expression) (state : σ) :
    (algebra.reduce limit state expression.tokens).outcome =
      algebra.interpret limit expression 0 state := by
  have interpreted :
      (algebra.reduceFrom limit [] 0 state expression.tokens).outcome =
        algebra.interpret limit expression 0 state := by
    have whole :=
      algebra.outcome_reduceFrom_tokens_append limit expression [] 0 state []
    rw [List.append_nil] at whole
    rw [whole]
    obtain ⟨_ | value, next⟩ := algebra.interpret limit expression 0 state <;>
      rfl
  have skipped := skipExpressions_tokens_append expression 0 []
  rw [List.append_nil] at skipped
  rw [← interpreted]
  unfold reduce
  rw [if_neg (by simp [expression.tokens_ne_nil])]
  dsimp only
  split
  · rfl
  · rename_i taken
    have read := algebra.skipExpressions_of_reduceFrom limit [] 0 state
      expression.tokens taken
    rw [missing, skipped] at read
    have emptyRest := Option.some.inj read
    rw [if_pos (by rw [← emptyRest]; rfl)]

end Algebra

end Formula
