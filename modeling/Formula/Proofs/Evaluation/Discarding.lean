import Formula.Evaluation
import Formula.Proofs.Reduction.Recursion

/-!
# Discarding what is not evaluated

An operator that its left side decides discards its right side. What is
discarded is the listing of one tree, found by a count of pending expressions
alone, and evaluation goes on with the tokens after it as if the right side had
never been there.
-/

namespace Formula

/-! ## The count of pending expressions -/

/-- The expressions that are pending after some tokens: each token begins one
of them and brings in those that it takes. The count is an integer, so that it
would show if more expressions began than were pending. -/
def pendingAfter (pending : Int) (removed : List Token) : Int :=
  removed.foldl (fun pending token => pending - 1 + token.arity) pending

theorem exists_eq_add_one_of_discardPending {pending discarded : Nat}
    {tokens : List Token}
    (removes :
      (discardPending pending discarded tokens).2.length < tokens.length) :
    ∃ count, pending = count + 1 := by
  refine Nat.exists_eq_add_one.2 (Nat.pos_of_ne_zero ?_)
  rintro rfl
  rw [discardPending] at removes
  exact Nat.lt_irrefl _ removes

/-- A token is removed only while an expression is pending, by a count that is
that of the tokens before it. -/
theorem discardPending_at_token {token : Token} {left : List Token}
    (removed : List Token) :
    ∀ pending discarded : Nat,
      (discardPending pending discarded
          (removed ++ token :: left)).2.length ≤ left.length →
        ∃ count : Nat,
          pendingAfter pending removed = (count + 1 : Nat) ∧
            discardPending pending discarded (removed ++ token :: left) =
              discardPending (count + 1) (discarded + removed.length)
                (token :: left) := by
  induction removed with
  | nil =>
      intro pending discarded isRemoved
      obtain ⟨count, rfl⟩ := exists_eq_add_one_of_discardPending
        (Nat.lt_succ_of_le isRemoved)
      exact ⟨count, rfl, rfl⟩
  | cons head removed inductionHypothesis =>
      intro pending discarded isRemoved
      have removes : (discardPending pending discarded
          (head :: removed ++ token :: left)).2.length <
            (head :: removed ++ token :: left).length := by
        refine Nat.lt_of_le_of_lt isRemoved ?_
        simp only [List.cons_append, List.length_cons, List.length_append]
        omega
      obtain ⟨before, rfl⟩ := exists_eq_add_one_of_discardPending removes
      obtain ⟨count, counted, goesOn⟩ :=
        inductionHypothesis (before + head.arity) (discarded + 1) isRemoved
      have begun : ((before + 1 : Nat) : Int) - 1 + head.arity =
          ((before + head.arity : Nat) : Int) := by
        omega
      refine ⟨count, ?_, ?_⟩
      · rw [pendingAfter, List.foldl_cons, begun]
        exact counted
      · rw [List.length_cons, Nat.add_comm removed.length, ← Nat.add_assoc]
        exact goesOn

/-! ## Evaluation that goes on -/

namespace Algebra

variable {σ α : Type} (algebra : Algebra σ α) (limit : Nat)

/-- Once its left side decides an operator, the state stays as it is while the
right side is discarded. -/
theorem proceed_of_decides {operator : LogicalOperator} {left result : α}
    (decides : algebra.decides? operator left = some result)
    (frames : List (Frame α)) (depth : Nat) (tokens : List Token)
    (state : σ) :
    algebra.proceed limit (.left (.logical operator) :: frames) depth tokens
        left state =
      match discardExpression tokens with
      | (.ok _, rest) =>
          algebra.proceed limit frames (depth - 1) rest result state
      | (.error error, rest) => ⟨.error error, rest, state⟩ := by
  rw [proceed, resume, decides]
  obtain ⟨error | count, rest⟩ := discardExpression tokens <;> rfl

end Algebra

/-- Discarding removes exactly one expression. Where the tokens begin with the
listing of a tree, it comes to the length of the listing and leaves what
follows; where they do not, they run out and an operand is missing. Whenever it
removes a token, an expression is pending, by a count that is not cut off at
zero. And whatever the resolver is, an operator that is decided by its left
side discards its right side without a change of the resolver's state: the
waiting operators go on with the result and with the tokens that are left. -/
theorem discardExpression_exact (tokens : List Token) :
    (∀ (expression : Expression) (rest : List Token),
        tokens = expression.tokens ++ rest →
          discardExpression tokens =
            (.ok expression.tokens.length, rest)) ∧
      ((∀ (expression : Expression) (rest : List Token),
          tokens ≠ expression.tokens ++ rest) →
        discardExpression tokens =
          (.error (.malformed .missingOperand), [])) ∧
      (∀ (removed : List Token) (token : Token) (left : List Token),
        tokens = removed ++ token :: left →
          (discardExpression tokens).2.length ≤ left.length →
            0 < pendingAfter 1 removed ∧
              discardExpression tokens =
                discardPending (pendingAfter 1 removed).toNat removed.length
                  (token :: left)) ∧
      ∀ (σ : Type) (resolver : Resolver σ) (members : ObjectMembers)
        (limit : Nat) (operator : LogicalOperator) (value result : Constant),
        Constant.decides? operator value = some result →
          ∀ (frames : List (Frame Constant)) (depth : Nat) (state : σ),
            (evaluation members resolver limit).proceed limit
                (.left (.logical operator) :: frames) depth tokens value
                state =
              match discardExpression tokens with
              | (.ok _, rest) =>
                  (evaluation members resolver limit).proceed limit frames
                    (depth - 1) rest result state
              | (.error error, rest) => ⟨.error error, rest, state⟩ := by
  refine ⟨?_, ?_, ?_, ?_⟩
  · rintro expression rest rfl
    exact discardExpression_tokens_append expression rest
  · intro noExpression
    rw [discardExpression, discardPending_eq]
    cases skipped : skipExpressions 1 tokens with
    | none =>
        rfl
    | some rest =>
        obtain ⟨expression, begins⟩ :=
          exists_tokens_append_of_skipExpressions_one skipped
        exact absurd begins (noExpression expression rest)
  · rintro removed token left rfl isRemoved
    obtain ⟨count, counted, goesOn⟩ :=
      discardPending_at_token removed 1 0 isRemoved
    rw [Nat.zero_add] at goesOn
    rw [Int.natCast_one] at counted
    rw [counted]
    exact ⟨by omega, goesOn⟩
  · intro σ resolver members limit operator value result decides frames depth
      state
    exact Algebra.proceed_of_decides _ limit decides frames depth tokens state

/-- The right side of `true || 1 / 0 == 1` before a further token, and a
comparison without its right side. -/
theorem discard_of_comparison_and_of_half :
    let one : Token := .operand (.constant (.number (.int 1)))
    let zero : Token := .operand (.constant (.number (.int 0)))
    let last : Token := .operand (.reference "last")
    let comparison : List Token :=
      [.binary (.equality .equal), .binary (.arithmetic .divide), one, zero,
        one]
    let half : List Token :=
      [.binary (.equality .equal), .unary .negate, one]
    let resolver : Resolver Nat := fun name asked =>
      (.error (.unknownReference name), asked + 1)
    let evaluates := evaluation (fun _ _ => none) resolver 9
    discardExpression (comparison ++ [last]) = (.ok 5, [last]) ∧
      (∀ (expression : Expression) (rest : List Token),
        half ≠ expression.tokens ++ rest) ∧
      discardExpression half = (.error (.malformed .missingOperand), []) ∧
      0 < pendingAfter 1 half.dropLast ∧
      evaluates.proceed 9
          [.left (.logical .or), .left (.logical .and)] 2
          (comparison ++ [last]) (.boolean true) 7 =
        evaluates.proceed 9 [.left (.logical .and)] 1 [last]
          (.boolean true) 7 := by
  intro one zero last comparison half resolver evaluates
  have noneBegins : ∀ (expression : Expression) (rest : List Token),
      half ≠ expression.tokens ++ rest := by
    intro expression rest begins
    have removed :=
      (discardExpression_exact half).1 expression rest begins
    cases removed
  refine ⟨?_, noneBegins, ?_, ?_, ?_⟩
  · exact (discardExpression_exact _).1
      (.binary (.equality .equal)
        (.binary (.arithmetic .divide)
          (.operand (.constant (.number (.int 1))))
          (.operand (.constant (.number (.int 0)))))
        (.operand (.constant (.number (.int 1)))))
      [last] rfl
  · exact (discardExpression_exact half).2.1 noneBegins
  · exact ((discardExpression_exact half).2.2.1 half.dropLast one [] rfl
      (Nat.le_refl 0)).1
  · exact (discardExpression_exact (comparison ++ [last])).2.2.2 Nat resolver
      (fun _ _ => none) 9 .or (.boolean true) (.boolean true) rfl
      [.left (.logical .and)] 2 7

end Formula
