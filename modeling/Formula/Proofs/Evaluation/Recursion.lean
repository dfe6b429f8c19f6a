import Formula.Evaluation
import Formula.Proofs.Reduction.Recursion

/-!
# Evaluation by recursion

Evaluating an expression by recursion on its tree, with every question that
the resolver is asked. Reading the listing of the tree comes to the same value
or error and asks the same questions in the same order.
-/

namespace Formula

variable {σ τ : Type}

/-- What an evaluation comes to: its result, the names that were asked for in
order, and the state of the resolver afterwards. -/
structure Course (σ : Type) where
  result : Except Error Constant
  asked : List String
  state : σ

namespace Course

/-- Nothing more is asked. -/
def finished (result : Except Error Constant) (state : σ) : Course σ :=
  ⟨result, [], state⟩

/-- Goes on with a value; an error ends the evaluation. -/
def andThen (first : Course σ) (next : Constant → σ → Course σ) : Course σ :=
  match first.result with
  | .ok value =>
      let second := next value first.state
      ⟨second.result, first.asked ++ second.asked, second.state⟩
  | .error _ => first

end Course

/-- The value of an operand. Each step along a chain of references is one
question, and no more than `hops` are asked. -/
def Operand.course (resolver : Resolver σ) (limit : Nat) :
    Nat → Operand → σ → Course σ
  | _, .constant value, state => .finished (.ok value) state
  | 0, .reference name, state =>
      .finished (.error (.malformed (.endlessReference name limit))) state
  | hops + 1, .reference name, state =>
      match resolver name state with
      | (.error error, next) => ⟨.error error, [name], next⟩
      | (.ok operand, next) =>
          let following := Operand.course resolver limit hops operand next
          ⟨following.result, name :: following.asked, following.state⟩

/-- The value of the member that the right side of a selection names. -/
def Constant.selectNamed (members : ObjectMembers) (owner : Constant) :
    Expression → Except Error Constant
  | .operand (.reference name) => owner.select members name
  | .operand (.constant value) =>
      .error (.unsupported (.binary .member) (.two owner.kind value.kind))
  | _ => .error (.malformed .missingMemberName)

/-- The value of an expression that stands below `depth` operators. The left
side is evaluated before the right one; a logical operator that its left side
decides leaves out the right side, and the name of a member is not asked
for. -/
def Expression.course (members : ObjectMembers) (resolver : Resolver σ)
    (limit : Nat) (expression : Expression) (depth : Nat) (state : σ) :
    Course σ :=
  if limit ≤ depth then
    .finished (.error (.malformed (.nestedTooDeep limit))) state
  else
    match expression with
    | .operand atom => atom.course resolver limit limit state
    | .unary operator inner =>
        (inner.course members resolver limit (depth + 1) state).andThen
          fun value state => .finished (value.applyUnary operator) state
    | .binary .member owner name =>
        (owner.course members resolver limit (depth + 1) state).andThen
          fun value state => .finished (value.selectNamed members name) state
    | .binary (.logical operator) left right =>
        (left.course members resolver limit (depth + 1) state).andThen
          fun first state =>
            match Constant.decides? operator first with
            | some result => .finished (.ok result) state
            | none =>
                (right.course members resolver limit (depth + 1)
                  state).andThen fun second state =>
                    .finished (first.apply (.logical operator) second) state
    | .binary operator left right =>
        (left.course members resolver limit (depth + 1) state).andThen
          fun first state =>
            (right.course members resolver limit (depth + 1) state).andThen
              fun second state =>
                .finished (first.apply operator second) state

/-! ## Resolvers that keep track -/

namespace Resolver

/-- A resolver answers like another one and keeps track of the questions:
`track` is its state after the given questions. -/
def Tracks (observed : Resolver τ) (resolver : Resolver σ)
    (track : σ → List String → τ) : Prop :=
  ∀ name state asked,
    observed name (track state asked) =
      ((resolver name state).1,
        track (resolver name state).2 (asked ++ [name]))

def recording (resolver : Resolver σ) : Resolver (σ × List String) :=
  fun name (state, asked) =>
    let (answer, next) := resolver name state
    (answer, next, asked ++ [name])

theorem tracks_self (resolver : Resolver σ) :
    resolver.Tracks resolver fun state _ => state :=
  fun _ _ _ => rfl

theorem tracks_recording (resolver : Resolver σ) :
    resolver.recording.Tracks resolver Prod.mk :=
  fun _ _ _ => rfl

end Resolver

def Course.tracked (course : Course σ) (track : σ → List String → τ)
    (asked : List String) : Outcome τ Constant :=
  (course.result, track course.state (asked ++ course.asked))

section Tracked

variable {observed : Resolver τ} {resolver : Resolver σ}
  {track : σ → List String → τ}

theorem Course.tracked_andThen {first : Course σ}
    {next : Constant → σ → Course σ}
    {others : Constant → τ → Outcome τ Constant} (asked : List String)
    (agree : ∀ value state asked,
      others value (track state asked) =
        (next value state).tracked track asked) :
    (first.tracked track asked).andThen others =
      (first.andThen next).tracked track asked := by
  obtain ⟨error | value, firstAsked, state⟩ := first
  · rfl
  · simp only [Course.tracked, Outcome.andThen, Course.andThen, agree,
      List.append_assoc]

theorem follow_tracked (tracks : observed.Tracks resolver track)
    (limit hops : Nat) (operand : Operand) (state : σ) (asked : List String) :
    observed.follow limit hops operand (track state asked) =
      (operand.course resolver limit hops state).tracked track asked := by
  induction hops generalizing operand state asked with
  | zero =>
      cases operand <;>
        simp [Resolver.follow, Operand.course, Course.tracked,
          Course.finished]
  | succ hops inductionHypothesis =>
      cases operand with
      | constant value =>
          simp [Resolver.follow, Operand.course, Course.tracked,
            Course.finished]
      | reference name =>
          rw [Resolver.follow, tracks name state asked, Operand.course]
          obtain ⟨error | operand, next⟩ := resolver name state
          · rfl
          · simp only [inductionHypothesis, Course.tracked,
              List.append_assoc, List.singleton_append]

theorem evaluation_decides? (members : ObjectMembers) (limit : Nat) :
    (evaluation members observed limit).decides? = Constant.decides? :=
  rfl

theorem selectNamed_evaluation (members : ObjectMembers) (limit : Nat)
    (owner : Constant) (name : Expression) :
    (evaluation members observed limit).selectNamed owner name =
      owner.selectNamed members name := by
  rcases name with (_ | _) | _ | _ <;> rfl

/-- Interpreting a tree as a value takes its course, whatever keeps track of
the questions. -/
theorem interpret_evaluation_tracked
    (tracks : observed.Tracks resolver track) (members : ObjectMembers)
    (limit : Nat) (expression : Expression) :
    ∀ (depth : Nat) (state : σ) (asked : List String),
      (evaluation members observed limit).interpret limit expression depth
          (track state asked) =
        (expression.course members resolver limit depth state).tracked
          track asked := by
  induction expression with
  | operand operand =>
      intro depth state asked
      rw [Algebra.interpret, Expression.course]
      split
      · simp [Course.tracked, Course.finished, Algebra.tooDeep]
      · exact follow_tracked tracks limit limit operand state asked
  | unary operator inner inductionHypothesis =>
      intro depth state asked
      rw [Algebra.interpret, Expression.course]
      split
      · simp [Course.tracked, Course.finished, Algebra.tooDeep]
      · rw [inductionHypothesis]
        refine Course.tracked_andThen asked fun value state asked => ?_
        simp [evaluation, Course.tracked, Course.finished]
  | binary operator left right leftHypothesis rightHypothesis =>
      intro depth state asked
      by_cases tooHigh : limit ≤ depth
      · rw [Algebra.interpret_of_limit_le _ _ _ tooHigh,
          Expression.course.eq_def, if_pos tooHigh]
        simp [Course.tracked, Course.finished, Algebra.tooDeep]
      cases operator with
      | member =>
          rw [Algebra.interpret, Expression.course, if_neg tooHigh,
            if_neg tooHigh, leftHypothesis]
          refine Course.tracked_andThen asked fun value state asked => ?_
          rw [selectNamed_evaluation]
          simp [Course.tracked, Course.finished]
      | logical operator =>
          rw [Algebra.interpret_binary _ _ (by simp) _ _ tooHigh,
            Expression.course, if_neg tooHigh, leftHypothesis]
          refine Course.tracked_andThen asked fun first state asked => ?_
          simp only [Algebra.decided?, evaluation_decides?]
          cases Constant.decides? operator first with
          | some result =>
              simp [Course.tracked, Course.finished]
          | none =>
              simp only [rightHypothesis]
              refine Course.tracked_andThen asked fun second state asked => ?_
              simp [evaluation, Course.tracked, Course.finished]
      | bitwise | equality | relational | shift | arithmetic =>
          rw [Algebra.interpret_binary _ _ (by simp) _ _ tooHigh,
            Expression.course.eq_def, if_neg tooHigh, leftHypothesis]
          refine Course.tracked_andThen asked fun first state asked => ?_
          simp only [Algebra.decided?, rightHypothesis]
          refine Course.tracked_andThen asked fun second state asked => ?_
          simp [evaluation, Course.tracked, Course.finished]

/-- So does reducing its listing. -/
theorem outcome_reduce_evaluation_tracked
    (tracks : observed.Tracks resolver track) (members : ObjectMembers)
    (limit : Nat) (expression : Expression) (state : σ)
    (asked : List String) :
    ((evaluation members observed limit).reduce limit (track state asked)
        expression.tokens).outcome =
      (expression.course members resolver limit 0 state).tracked track
        asked := by
  rw [Algebra.outcome_reduce_tokens]
  exact interpret_evaluation_tracked tracks members limit expression 0 state
    asked

end Tracked

/-- Reading the listing of a tree evaluates the tree: with any resolver it ends
with the same result and the same state, after the same questions in the same
order. A list of tokens has a value only if it is the listing of one tree. -/
theorem reduce_evaluation_eq_course (members : ObjectMembers)
    (resolver : Resolver σ) (limit : Nat) (state : σ) :
    (∀ expression : Expression,
      let course := expression.course members resolver limit 0 state
      ((evaluation members resolver limit).reduce limit state
          expression.tokens).outcome = (course.result, course.state) ∧
        ((evaluation members resolver.recording limit).reduce limit
            (state, []) expression.tokens).outcome =
          (course.result, course.state, course.asked)) ∧
      ∀ (tokens : List Token) (value : Constant),
        ((evaluation members resolver limit).reduce limit state
            tokens).result = .ok value →
          ∃ expression : Expression, expression.tokens = tokens ∧
            ∀ other : Expression,
              other.tokens = tokens → other = expression := by
  refine ⟨fun expression => ⟨?_, ?_⟩, fun tokens value reduced => ?_⟩
  · rw [Algebra.outcome_reduce_tokens]
    exact interpret_evaluation_tracked resolver.tracks_self members limit
      expression 0 state []
  · rw [Algebra.outcome_reduce_tokens]
    exact interpret_evaluation_tracked resolver.tracks_recording members limit
      expression 0 state []
  · obtain ⟨expression, rfl⟩ :=
      (evaluation members resolver limit).exists_eq_tokens_of_reduce limit
        reduced
    exact ⟨expression, rfl, fun other => Expression.tokens_injective⟩

/-- The tokens of `!true && x + 1`, whose right side is never read. -/
theorem exists_tree_of_decided_conjunction :
    let tokens : List Token :=
      [.binary (.logical .and), .unary .not,
        .operand (.constant (.boolean true)), .binary (.arithmetic .add),
        .operand (.reference "x"), .operand (.constant (.number (.int 1)))]
    let resolver : Resolver Unit := fun name state =>
      (.error (.unknownReference name), state)
    ((evaluation (fun _ _ => none) resolver 3).reduce 3 () tokens).result =
        .ok (.boolean false) ∧
      ∃ expression : Expression, expression.tokens = tokens ∧
        ∀ other : Expression, other.tokens = tokens → other = expression := by
  intro tokens resolver
  have reduced :
      ((evaluation (fun _ _ => none) resolver 3).reduce 3 () tokens).result =
        .ok (.boolean false) := by
    cbv
  exact ⟨reduced,
    (reduce_evaluation_eq_course (fun _ _ => none) resolver 3 ()).2 tokens
      (.boolean false) reduced⟩

end Formula
