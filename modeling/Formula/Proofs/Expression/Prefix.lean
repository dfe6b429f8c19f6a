import Formula.Proofs.Expression
import Formula.Reduction

/-!
# Prefix listings

An operator stands before its operands, so a list of tokens is the listing of
at most one tree, and counting the operands that are still missing is enough to
find the end of a listing.
-/

namespace Formula

namespace Expression

/-- No listing is a proper beginning of another one. -/
theorem tokens_append_injective :
    ∀ {first second : Expression} {firstRest secondRest : List Token},
      first.tokens ++ firstRest = second.tokens ++ secondRest →
        first = second ∧ firstRest = secondRest
  | .operand _, .operand _, _, _, equality => by
      simpa [tokens] using equality
  | .unary _ inner, .unary _ other, _, _, equality => by
      simp only [tokens, List.cons_append, List.cons.injEq,
        Token.unary.injEq] at equality
      obtain ⟨rfl, innerEquality⟩ := equality
      obtain ⟨rfl, restEquality⟩ := tokens_append_injective innerEquality
      exact ⟨rfl, restEquality⟩
  | .binary _ left right, .binary _ otherLeft otherRight, _, _, equality => by
      simp only [tokens, List.cons_append, List.append_assoc,
        List.cons.injEq, Token.binary.injEq] at equality
      obtain ⟨rfl, operandsEquality⟩ := equality
      obtain ⟨rfl, rightEquality⟩ := tokens_append_injective operandsEquality
      obtain ⟨rfl, restEquality⟩ := tokens_append_injective rightEquality
      exact ⟨rfl, restEquality⟩
  | .operand _, .unary _ _, _, _, equality => by simp [tokens] at equality
  | .operand _, .binary _ _ _, _, _, equality => by simp [tokens] at equality
  | .unary _ _, .operand _, _, _, equality => by simp [tokens] at equality
  | .unary _ _, .binary _ _ _, _, _, equality => by simp [tokens] at equality
  | .binary _ _ _, .operand _, _, _, equality => by simp [tokens] at equality
  | .binary _ _ _, .unary _ _, _, _, equality => by simp [tokens] at equality

theorem tokens_injective {first second : Expression}
    (equality : first.tokens = second.tokens) : first = second :=
  (tokens_append_injective (congrArg (· ++ []) equality)).1

theorem tokens_ne_nil (expression : Expression) : expression.tokens ≠ [] := by
  cases expression <;> simp [tokens]

end Expression

/-! ## Skipping -/

/-- What follows a number of complete expressions, if there are so many. -/
def skipExpressions : Nat → List Token → Option (List Token)
  | 0, tokens => some tokens
  | _ + 1, [] => none
  | count + 1, token :: rest => skipExpressions (count + token.arity) rest

theorem length_le_of_skipExpressions {count : Nat} {tokens rest : List Token}
    (skipped : skipExpressions count tokens = some rest) :
    rest.length ≤ tokens.length := by
  fun_induction skipExpressions count tokens with
  | case1 =>
      cases skipped
      exact Nat.le_refl _
  | case2 =>
      cases skipped
  | case3 count token tail inductionHypothesis =>
      exact Nat.le_succ_of_le (inductionHypothesis skipped)

/-- Skipping removes the listing of one tree for each expression to skip. -/
theorem skipExpressions_tokens_append (expression : Expression) :
    ∀ (count : Nat) (rest : List Token),
      skipExpressions (count + 1) (expression.tokens ++ rest) =
        skipExpressions count rest := by
  induction expression with
  | operand operand =>
      intro count rest
      rfl
  | unary operator inner inductionHypothesis =>
      intro count rest
      exact inductionHypothesis count rest
  | binary operator left right leftHypothesis rightHypothesis =>
      intro count rest
      have skipLeft := leftHypothesis (count + 1) (right.tokens ++ rest)
      rw [rightHypothesis count rest] at skipLeft
      simpa [Expression.tokens, skipExpressions, Token.arity] using skipLeft

/-- What is skipped is a sequence of listings. -/
theorem exists_tokens_of_skipExpressions {count : Nat}
    {tokens rest : List Token}
    (skipped : skipExpressions count tokens = some rest) :
    ∃ trees : List Expression,
      trees.length = count ∧
        tokens = trees.flatMap Expression.tokens ++ rest := by
  fun_induction skipExpressions count tokens with
  | case1 =>
      cases skipped
      exact ⟨[], rfl, rfl⟩
  | case2 =>
      cases skipped
  | case3 count token tail inductionHypothesis =>
      obtain ⟨trees, lengthEquality, tailEquality⟩ :=
        inductionHypothesis skipped
      cases token with
      | operand operand =>
          exact ⟨.operand operand :: trees,
            by simpa [Token.arity] using lengthEquality,
            by simp [tailEquality, Expression.tokens]⟩
      | unary operator =>
          obtain ⟨inner, others, rfl⟩ :=
            List.exists_cons_of_length_eq_add_one lengthEquality
          exact ⟨.unary operator inner :: others,
            by simpa [Token.arity] using lengthEquality,
            by simp [tailEquality, Expression.tokens]⟩
      | binary operator =>
          obtain ⟨left, others, rfl⟩ :=
            List.exists_cons_of_length_eq_add_one lengthEquality
          obtain ⟨right, others, rfl⟩ :=
            List.exists_cons_of_length_eq_add_one
              (Nat.succ.inj lengthEquality)
          exact ⟨.binary operator left right :: others,
            by simpa [Token.arity] using lengthEquality,
            by simp [tailEquality, Expression.tokens]⟩

theorem exists_tokens_append_of_skipExpressions_one
    {tokens rest : List Token}
    (skipped : skipExpressions 1 tokens = some rest) :
    ∃ expression : Expression, tokens = expression.tokens ++ rest := by
  obtain ⟨trees, lengthEquality, tokensEquality⟩ :=
    exists_tokens_of_skipExpressions skipped
  obtain ⟨expression, rfl⟩ := List.length_eq_one_iff.1 lengthEquality
  exact ⟨expression, by simpa using tokensEquality⟩

/-- Skipping several expressions skips the first one first. -/
theorem skipExpressions_succ_of_one {tokens rest : List Token}
    (skipped : skipExpressions 1 tokens = some rest) (count : Nat) :
    skipExpressions (count + 1) tokens = skipExpressions count rest := by
  obtain ⟨expression, rfl⟩ :=
    exists_tokens_append_of_skipExpressions_one skipped
  exact skipExpressions_tokens_append expression count rest

/-! ## Discarding -/

/-- Discarding leaves what skipping leaves and counts the tokens before it. -/
theorem discardPending_eq (pending discarded : Nat) (tokens : List Token) :
    discardPending pending discarded tokens =
      match skipExpressions pending tokens with
      | some rest => (.ok (discarded + (tokens.length - rest.length)), rest)
      | none => (.error (.malformed .missingOperand), []) := by
  fun_induction discardPending pending discarded tokens with
  | case1 discarded tokens =>
      simp [skipExpressions]
  | case2 =>
      rfl
  | case3 pending discarded token tail inductionHypothesis =>
      rw [inductionHypothesis, skipExpressions]
      cases skipped : skipExpressions (pending + token.arity) tail with
      | none =>
          rfl
      | some rest =>
          have atMost := length_le_of_skipExpressions skipped
          simp only [List.length_cons, Prod.mk.injEq, Except.ok.injEq,
            and_true]
          omega

theorem discardExpression_tokens_append (expression : Expression)
    (rest : List Token) :
    discardExpression (expression.tokens ++ rest) =
      (.ok expression.tokens.length, rest) := by
  rw [discardExpression, discardPending_eq,
    skipExpressions_tokens_append expression 0, skipExpressions]
  simp

theorem skipExpressions_of_discardPending {pending discarded count : Nat}
    {tokens rest : List Token}
    (removed : discardPending pending discarded tokens = (.ok count, rest)) :
    skipExpressions pending tokens = some rest := by
  rw [discardPending_eq] at removed
  cases skipped : skipExpressions pending tokens with
  | none =>
      rw [skipped] at removed
      cases removed
  | some left =>
      rw [skipped] at removed
      cases removed
      rfl

end Formula
