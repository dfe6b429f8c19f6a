import Formula.Proofs.Evaluation.Recursion
import Formula.Proofs.Reduction.Errors

/-!
# Errors and limits of evaluation

Which evaluations end in an error of form, and what a greater limit changes.
Values do not report such an error, so it comes from the resolver, from the
tree or from a chain of references without an end.
-/

namespace Formula

variable {σ : Type}

/-! ## Values -/

namespace Constant

theorem eq_divisionByZero_of_applyDefined? {operator : BinaryOperator}
    {left right : Constant} {error : Error}
    (defined : applyDefined? operator left right = some (.error error)) :
    error = .divisionByZero := by
  unfold applyDefined? at defined
  split at defined
  · cases defined
  · cases defined
  · split at defined
    · cases defined
    · cases defined
      rfl
  all_goals simp at defined

theorem not_isFormal_of_apply {operator : BinaryOperator}
    {left right : Constant} {error : Error}
    (failed : left.apply operator right = .error error) :
    ¬ error.IsFormal := by
  intro isFormal
  unfold apply at failed
  cases defined : applyDefined? operator left right with
  | none =>
      rw [defined] at failed
      cases failed
      cases isFormal
  | some result =>
      rw [defined] at failed
      obtain rfl : result = .error error := failed
      obtain rfl := eq_divisionByZero_of_applyDefined? defined
      cases isFormal

theorem not_isFormal_of_applyUnary {operator : UnaryOperator}
    {operand : Constant} {error : Error}
    (failed : operand.applyUnary operator = .error error) :
    ¬ error.IsFormal := by
  intro isFormal
  simp only [applyUnary] at failed
  split at failed
  · cases failed
  · cases failed
  · cases failed
  · split at failed
    · cases failed
    · cases failed
      cases isFormal
  · cases failed
    cases isFormal

theorem not_isFormal_of_selectOperand {members : ObjectMembers}
    {owner : Constant} {name : Operand} {error : Error}
    (failed : owner.selectOperand members name = .error error) :
    ¬ error.IsFormal := by
  intro isFormal
  cases name with
  | constant value =>
      cases failed
      cases isFormal
  | reference name =>
      simp only [selectOperand, select] at failed
      split at failed
      · split at failed
        · cases failed
        · cases failed
          cases isFormal
      · cases failed
        cases isFormal

end Constant

/-! ## Chains of references -/

/-- The reference that stands at the end of a number of questions, each about
the reference that answers the one before, and the state then. -/
def Resolver.chain (resolver : Resolver σ) :
    Nat → String → σ → Option (String × σ)
  | 0, name, state => some (name, state)
  | hops + 1, name, state =>
      match resolver name state with
      | (.ok (.reference next), state) => resolver.chain hops next state
      | _ => none

/-- Some question is answered with an error. -/
def Resolver.Reports (resolver : Resolver σ) (error : Error) : Prop :=
  ∃ name state, (resolver name state).1 = .error error

/-- A reference is not followed to a value only if the resolver reports an error
or every question is answered with another reference. -/
theorem Resolver.reports_or_chain_of_follow {resolver : Resolver σ}
    {limit : Nat} :
    ∀ {hops : Nat} {operand : Operand} {state final : σ} {error : Error},
      resolver.follow limit hops operand state = (.error error, final) →
        resolver.Reports error ∨
          ∃ first last, operand = .reference first ∧
            error = .malformed (.endlessReference last limit) ∧
              resolver.chain hops first state = some (last, final) := by
  intro hops
  induction hops with
  | zero =>
      intro operand state final error failed
      cases operand with
      | constant value =>
          cases failed
      | reference name =>
          cases failed
          exact .inr ⟨name, name, rfl, rfl, rfl⟩
  | succ hops inductionHypothesis =>
      intro operand state final error failed
      cases operand with
      | constant value =>
          cases failed
      | reference name =>
          rw [follow] at failed
          cases answered : resolver name state with
          | mk answer middle =>
              rw [answered] at failed
              cases answer with
              | error reported =>
                  cases failed
                  exact .inl ⟨name, state, congrArg Prod.fst answered⟩
              | ok operand =>
                  rcases inductionHypothesis failed with
                    reports | ⟨first, last, rfl, isEndless, chained⟩
                  · exact .inl reports
                  · refine .inr ⟨name, last, rfl, isEndless, ?_⟩
                    rw [chain, answered]
                    exact chained

/-- An error of form that a tree within the limit evaluates to is reported by
the resolver, comes from a chain of references that does not end, or is that no
member is named. -/
theorem cases_of_reduce_evaluation {members : ObjectMembers}
    {resolver : Resolver σ} {limit : Nat} {state final : σ}
    {expression : Expression} {error : Error} (isFormal : error.IsFormal)
    (fits : expression.height ≤ limit)
    (failed : ((evaluation members resolver limit).reduce limit state
      expression.tokens).outcome = (.error error, final)) :
    resolver.Reports error ∨
      (∃ first start last, expression.HasOperand (.reference first) ∧
        error = .malformed (.endlessReference last limit) ∧
          resolver.chain limit first start = some (last, final)) ∨
      error = .malformed .missingMemberName ∧
        ¬ expression.NamesMembers := by
  rw [Algebra.outcome_reduce_tokens] at failed
  have raises : (evaluation members resolver limit).Raises expression error
      final :=
    Algebra.raises_of_interpret expression (by omega) failed
  rcases raises.error_cases
      (fun _ _ failed => Constant.not_isFormal_of_applyUnary failed isFormal)
      (fun _ _ _ failed => Constant.not_isFormal_of_apply failed isFormal)
    with ⟨operand, start, stands, asked⟩ | ⟨owner, name, selected⟩ | unnamed
  · rcases Resolver.reports_or_chain_of_follow asked with
      reports | ⟨first, last, rfl, isEndless, chained⟩
    · exact .inl reports
    · exact .inr (.inl ⟨first, start, last, stands, isEndless, chained⟩)
  · exact absurd isFormal (Constant.not_isFormal_of_selectOperand selected)
  · exact .inr (.inr unnamed)

/-! ## Greater limits -/

/-- What follows another course that is the same as far as it succeeds. -/
theorem Course.andThen_eq_of_ok {first other : Course σ}
    {next others : Constant → σ → Course σ} {value : Constant}
    (succeeds : (first.andThen next).result = .ok value)
    (firstEq : ∀ value, first.result = .ok value → other = first)
    (nextEq : ∀ middle state value, (next middle state).result = .ok value →
      others middle state = next middle state) :
    other.andThen others = first.andThen next := by
  obtain ⟨result, asked, state⟩ := first
  cases result with
  | error error =>
      cases succeeds
  | ok middle =>
      obtain rfl := firstEq middle rfl
      have nextSucceeds : (next middle state).result = .ok value := succeeds
      simp only [andThen, nextEq middle state value nextSucceeds]

/-- A value that a few questions lead to is not changed by allowing more. -/
theorem Operand.course_eq_of_le {resolver : Resolver σ} {limit other : Nat} :
    ∀ {hops more : Nat} {operand : Operand} {state : σ} {value : Constant},
      hops ≤ more →
        (operand.course resolver limit hops state).result = .ok value →
          operand.course resolver other more state =
            operand.course resolver limit hops state := by
  intro hops
  induction hops with
  | zero =>
      intro more operand state value wider succeeds
      cases operand with
      | constant value =>
          simp only [course]
      | reference name =>
          cases succeeds
  | succ hops inductionHypothesis =>
      intro more operand state value wider succeeds
      cases operand with
      | constant value =>
          simp only [course]
      | reference name =>
          cases more with
          | zero =>
              omega
          | succ more =>
              cases answered : resolver name state with
              | mk answer middle =>
                  cases answer with
                  | error error =>
                      simp only [course, answered]
                  | ok operand =>
                      simp only [course, answered] at succeeds ⊢
                      have following := inductionHypothesis
                        (Nat.le_of_succ_le_succ wider) succeeds
                      rw [following]

theorem Expression.lt_limit_of_course {members : ObjectMembers}
    {resolver : Resolver σ} {limit depth : Nat} {expression : Expression}
    {state : σ} {value : Constant}
    (succeeds :
      (expression.course members resolver limit depth state).result =
        .ok value) :
    depth < limit := by
  refine Nat.lt_of_not_le fun tooHigh => ?_
  rw [course.eq_def, if_pos tooHigh] at succeeds
  cases succeeds

/-- A value that is found within a limit is found in the same course within a
greater one. -/
theorem Expression.course_eq_of_le {members : ObjectMembers}
    {resolver : Resolver σ} {limit other : Nat} (wider : limit ≤ other)
    (expression : Expression) :
    ∀ {depth : Nat} {state : σ} {value : Constant},
      (expression.course members resolver limit depth state).result =
          .ok value →
        expression.course members resolver other depth state =
          expression.course members resolver limit depth state := by
  induction expression with
  | operand operand =>
      intro depth state value succeeds
      have inside := lt_limit_of_course succeeds
      rw [course, if_neg (by omega)] at succeeds
      rw [course, if_neg (by omega), course, if_neg (by omega)]
      exact Operand.course_eq_of_le wider succeeds
  | unary operator inner inductionHypothesis =>
      intro depth state value succeeds
      have inside := lt_limit_of_course succeeds
      rw [course, if_neg (by omega)] at succeeds
      rw [course, if_neg (by omega), course, if_neg (by omega)]
      exact Course.andThen_eq_of_ok succeeds
        (fun _ innerSucceeds => inductionHypothesis innerSucceeds)
        (fun _ _ _ _ => rfl)
  | binary operator left right leftHypothesis rightHypothesis =>
      intro depth state value succeeds
      have inside := lt_limit_of_course succeeds
      cases operator with
      | member =>
          rw [course, if_neg (by omega)] at succeeds
          rw [course, if_neg (by omega), course, if_neg (by omega)]
          exact Course.andThen_eq_of_ok succeeds
            (fun _ leftSucceeds => leftHypothesis leftSucceeds)
            (fun _ _ _ _ => rfl)
      | logical operator =>
          rw [course, if_neg (by omega)] at succeeds
          rw [course, if_neg (by omega), course, if_neg (by omega)]
          refine Course.andThen_eq_of_ok succeeds
            (fun _ leftSucceeds => leftHypothesis leftSucceeds) ?_
          intro first middle result goesOn
          cases decided : Constant.decides? operator first with
          | some decision =>
              rfl
          | none =>
              simp only [decided] at goesOn ⊢
              exact Course.andThen_eq_of_ok goesOn
                (fun _ rightSucceeds => rightHypothesis rightSucceeds)
                (fun _ _ _ _ => rfl)
      | bitwise | equality | relational | shift | arithmetic =>
          rw [course.eq_def, if_neg (by omega)] at succeeds
          rw [course.eq_def, if_neg (by omega), course.eq_def,
            if_neg (by omega)]
          refine Course.andThen_eq_of_ok succeeds
            (fun _ leftSucceeds => leftHypothesis leftSucceeds) ?_
          intro first middle result goesOn
          exact Course.andThen_eq_of_ok goesOn
            (fun _ rightSucceeds => rightHypothesis rightSucceeds)
            (fun _ _ _ _ => rfl)

/-- Tokens that have a value within a limit have it within a greater one, after
the same questions. -/
theorem reduce_evaluation_eq_of_le {members : ObjectMembers}
    {resolver : Resolver σ} {limit other : Nat} (wider : limit ≤ other)
    {state : σ} {tokens : List Token} {value : Constant}
    (succeeds : ((evaluation members resolver limit).reduce limit state
      tokens).result = .ok value) :
    ((evaluation members resolver other).reduce other state tokens).outcome =
      ((evaluation members resolver limit).reduce limit state
        tokens).outcome := by
  obtain ⟨expression, rfl⟩ :=
    (evaluation members resolver limit).exists_eq_tokens_of_reduce limit
      succeeds
  have narrow := outcome_reduce_evaluation_tracked resolver.tracks_self members
    limit expression state []
  have wide := outcome_reduce_evaluation_tracked resolver.tracks_self members
    other expression state []
  have courseSucceeds :
      (expression.course members resolver limit 0 state).result = .ok value :=
    (congrArg Prod.fst narrow).symm.trans succeeds
  rw [expression.course_eq_of_le wider courseSucceeds] at wide
  exact wide.trans narrow.symm

/-- A resolver that keeps the names it was asked for leads to the same
result. -/
theorem reduce_evaluation_recording (members : ObjectMembers)
    (resolver : Resolver σ) (limit : Nat) (state : σ)
    (expression : Expression) :
    ((evaluation members resolver.recording limit).reduce limit (state, [])
        expression.tokens).result =
      ((evaluation members resolver limit).reduce limit state
        expression.tokens).result := by
  have plain := outcome_reduce_evaluation_tracked resolver.tracks_self members
    limit expression state []
  have recorded := outcome_reduce_evaluation_tracked
    resolver.tracks_recording members limit expression state []
  exact (congrArg Prod.fst recorded).trans (congrArg Prod.fst plain).symm

end Formula
