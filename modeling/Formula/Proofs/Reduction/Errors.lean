import Formula.Proofs.Reduction.Recursion

/-!
# Errors of a reduction

Where the error of a reduction comes from. A tree that stays within the limit
has no error but those that its parts end in.
-/

namespace Formula

/-- An error of the form of an expression: of the way it is written or of its
structure. -/
inductive Error.IsFormal : Error → Prop
  | written (offset : Nat) (fault : SyntaxFault) :
      IsFormal (.written offset fault)
  | malformed (fault : StructureFault) : IsFormal (.malformed fault)

namespace Expression

/-- The right side of every member selection is a reference. -/
def NamesMembers : Expression → Prop
  | .operand _ => True
  | .unary _ inner => inner.NamesMembers
  | .binary operator left right =>
      left.NamesMembers ∧ right.NamesMembers ∧
        (operator = .member → ∃ name, right = .operand (.reference name))

/-- An operand stands in a tree, and not as the name of a member. -/
def HasOperand (operand : Operand) : Expression → Prop
  | .operand other => other = operand
  | .unary _ inner => inner.HasOperand operand
  | .binary operator left right =>
      left.HasOperand operand ∨
        operator ≠ .member ∧ right.HasOperand operand

end Expression

variable {σ α β : Type}

namespace Outcome

theorem andThen_eq_error_iff {outcome : Outcome σ α}
    {next : α → σ → Outcome σ β} {error : Error} {final : σ} :
    outcome.andThen next = (.error error, final) ↔
      outcome = (.error error, final) ∨
        ∃ value state, outcome = (.ok value, state) ∧
          next value state = (.error error, final) := by
  obtain ⟨first | value, state⟩ := outcome
  · simp [andThen]
  · constructor
    · intro equality
      exact .inr ⟨value, state, rfl, equality⟩
    · rintro (⟨⟨⟩⟩ | ⟨_, _, ⟨⟩, equality⟩)
      exact equality

end Outcome

namespace Algebra

/-- A part of a tree ends in an error, and the state is what it leaves. -/
inductive Raises (algebra : Algebra σ α) : Expression → Error → σ → Prop
  | operand {operand : Operand} {state final : σ} {error : Error}
      (fails : algebra.operand operand state = (.error error, final)) :
      Raises algebra (.operand operand) error final
  | unary {operator : UnaryOperator} {value : α} {error : Error}
      (fails : algebra.unary operator value = .error error)
      (inner : Expression) (final : σ) :
      Raises algebra (.unary operator inner) error final
  | binary {operator : BinaryOperator} {first second : α} {error : Error}
      (fails : algebra.binary operator first second = .error error)
      (left right : Expression) (final : σ) :
      Raises algebra (.binary operator left right) error final
  | selection {value : α} {name : Expression} {error : Error}
      (fails : algebra.selectNamed value name = .error error)
      (owner : Expression) (final : σ) :
      Raises algebra (.binary .member owner name) error final
  | inner (operator : UnaryOperator) {inner : Expression} {error : Error}
      {final : σ} (raises : Raises algebra inner error final) :
      Raises algebra (.unary operator inner) error final
  | left (operator : BinaryOperator) {left : Expression} {error : Error}
      {final : σ} (raises : Raises algebra left error final)
      (right : Expression) :
      Raises algebra (.binary operator left right) error final
  | right {operator : BinaryOperator} (notMember : operator ≠ .member)
      (left : Expression) {right : Expression} {error : Error} {final : σ}
      (raises : Raises algebra right error final) :
      Raises algebra (.binary operator left right) error final

variable {algebra : Algebra σ α} {limit : Nat}

/-- A tree within the limit has the errors of its parts alone: nothing in it
stands too deep. -/
theorem raises_of_interpret (expression : Expression) :
    ∀ {depth : Nat} {state final : σ} {error : Error},
      depth + expression.height ≤ limit →
        algebra.interpret limit expression depth state =
            (.error error, final) →
          algebra.Raises expression error final := by
  induction expression with
  | operand operand =>
      intro depth state final error fits failed
      have inside : ¬ limit ≤ depth := by
        simp only [Expression.height] at fits
        omega
      rw [interpret, if_neg inside] at failed
      exact .operand failed
  | unary operator inner inductionHypothesis =>
      intro depth state final error fits failed
      simp only [Expression.height] at fits
      have inside : ¬ limit ≤ depth := by
        omega
      rw [interpret, if_neg inside] at failed
      rcases Outcome.andThen_eq_error_iff.1 failed with
        innerFailed | ⟨value, middle, _, applied⟩
      · exact .inner operator (inductionHypothesis (by omega) innerFailed)
      · exact .unary (congrArg Prod.fst applied) inner final
  | binary operator left right leftHypothesis rightHypothesis =>
      intro depth state final error fits failed
      simp only [Expression.height] at fits
      have inside : ¬ limit ≤ depth := by
        omega
      by_cases isMember : operator = .member
      · subst isMember
        rw [interpret, if_neg inside] at failed
        rcases Outcome.andThen_eq_error_iff.1 failed with
          ownerFailed | ⟨owner, middle, _, selected⟩
        · exact .left .member (leftHypothesis (by omega) ownerFailed) right
        · exact .selection (congrArg Prod.fst selected) left final
      · rw [interpret_binary _ _ isMember _ _ inside] at failed
        rcases Outcome.andThen_eq_error_iff.1 failed with
          leftFailed | ⟨first, middle, _, goesOn⟩
        · exact .left operator (leftHypothesis (by omega) leftFailed) right
        · cases decided : algebra.decided? operator first with
          | some result =>
              simp only [decided] at goesOn
              cases goesOn
          | none =>
              simp only [decided] at goesOn
              rcases Outcome.andThen_eq_error_iff.1 goesOn with
                rightFailed | ⟨second, last, _, applied⟩
              · exact .right isMember left
                  (rightHypothesis (by omega) rightFailed)
              · exact .binary (congrArg Prod.fst applied) left right final

/-- The right side of a selection is an operand, or no member is named. -/
theorem selectNamed_eq_error {owner : α} {name : Expression} {error : Error}
    (failed : algebra.selectNamed owner name = .error error) :
    (∃ operand, algebra.member owner operand = .error error) ∨
      error = .malformed .missingMemberName ∧
        ∀ operand, name ≠ .operand operand := by
  cases name with
  | operand operand =>
      exact .inl ⟨operand, failed⟩
  | unary | binary =>
      cases failed
      exact .inr ⟨rfl, fun operand => by simp⟩

/-- An error that no operator reports is one of an operand or a selection, or
something that names no member stands where a name belongs. -/
theorem Raises.error_cases {expression : Expression} {error : Error}
    {final : σ} (raises : algebra.Raises expression error final)
    (unary : ∀ operator value, algebra.unary operator value ≠ .error error)
    (binary : ∀ operator first second,
      algebra.binary operator first second ≠ .error error) :
    (∃ operand state, expression.HasOperand operand ∧
        algebra.operand operand state = (.error error, final)) ∨
      (∃ owner operand, algebra.member owner operand = .error error) ∨
      error = .malformed .missingMemberName ∧ ¬ expression.NamesMembers := by
  induction raises with
  | @operand operand state final error fails =>
      exact .inl ⟨operand, state, rfl, fails⟩
  | unary fails =>
      exact absurd fails (unary _ _)
  | binary fails =>
      exact absurd fails (binary _ _ _)
  | selection fails owner final =>
      rcases selectNamed_eq_error fails with
        ⟨operand, reported⟩ | ⟨isMissing, notOperand⟩
      · exact .inr (.inl ⟨_, operand, reported⟩)
      · refine .inr (.inr ⟨isMissing, ?_⟩)
        rintro ⟨_, _, named⟩
        obtain ⟨name, isName⟩ := named rfl
        exact notOperand _ isName
  | inner operator _ inductionHypothesis =>
      exact inductionHypothesis unary binary
  | left operator _ right inductionHypothesis =>
      rcases inductionHypothesis unary binary with
        ⟨operand, state, stands, fails⟩ | reported | ⟨isMissing, unnamed⟩
      · exact .inl ⟨operand, state, .inl stands, fails⟩
      · exact .inr (.inl reported)
      · exact .inr (.inr ⟨isMissing, fun named => unnamed named.1⟩)
  | right notMember left _ inductionHypothesis =>
      rcases inductionHypothesis unary binary with
        ⟨operand, state, stands, fails⟩ | reported | ⟨isMissing, unnamed⟩
      · exact .inl ⟨operand, state, .inr ⟨notMember, stands⟩, fails⟩
      · exact .inr (.inl reported)
      · exact .inr (.inr ⟨isMissing, fun named => unnamed named.2.1⟩)

end Algebra

end Formula
