import Formula.Proofs.Source.Trees

/-!
# Phrases

The lexemes that an expression is written with, by level. From the loosest to
the tightest, the levels 2 to 11 are those of the binary operators, 12 that of
the unary ones, 13 that of member selection, and 14 is what stands alone.
-/

namespace Formula

/-- Lexemes form an expression that may stand where a level is asked for. -/
inductive Phrase (keywords : Keywords) :
    Nat → List PlacedLexeme → Expression → Prop
  | constant (offset : Nat) (value : Constant) :
      Phrase keywords 14 [⟨offset, .constant value⟩]
        (.operand (.constant value))
  | word (offset : Nat) (name : String) :
      Phrase keywords 14 [⟨offset, .word name⟩]
        (.operand (keywords.operand name))
  | group (opening closing : Nat) {lexemes : List PlacedLexeme}
      {tree : Expression} (inside : Phrase keywords 2 lexemes tree) :
      Phrase keywords 14
        (⟨opening, .opening⟩ :: (lexemes ++ [⟨closing, .closing⟩])) tree
  | member (offset nameOffset : Nat) (name : String)
      {lexemes : List PlacedLexeme} {tree : Expression}
      (owner : Phrase keywords 13 lexemes tree) :
      Phrase keywords 13
        (lexemes ++
          [⟨offset, .binary .member⟩, ⟨nameOffset, .memberName name⟩])
        (.binary .member tree (.operand (.reference name)))
  | unary (offset : Nat) (operator : UnaryOperator)
      {lexemes : List PlacedLexeme} {tree : Expression}
      (inner : Phrase keywords 12 lexemes tree) :
      Phrase keywords 12 (⟨offset, .unary operator⟩ :: lexemes)
        (.unary operator tree)
  | binary (offset : Nat) {operator : BinaryOperator}
      (notMember : operator ≠ .member)
      {leftLexemes rightLexemes : List PlacedLexeme}
      {left right : Expression}
      (leftPhrase : Phrase keywords operator.precedence leftLexemes left)
      (rightPhrase :
        Phrase keywords (operator.precedence + 1) rightLexemes right) :
      Phrase keywords operator.precedence
        (leftLexemes ++ ⟨offset, .binary operator⟩ :: rightLexemes)
        (.binary operator left right)
  | loosen {level : Nat} {lexemes : List PlacedLexeme} {tree : Expression}
      (phrase : Phrase keywords (level + 1) lexemes tree) :
      Phrase keywords level lexemes tree

/-- What every level passes on to the looser one below it holds of all looser
levels. -/
theorem Levels.of_le (holds : Nat → Prop)
    (loosen : ∀ level, holds (level + 1) → holds level) {level looser : Nat}
    (isLooser : looser ≤ level) (atLevel : holds level) : holds looser := by
  induction level with
  | zero =>
      obtain rfl := Nat.le_zero.1 isLooser
      exact atLevel
  | succ level inductionHypothesis =>
      rcases Nat.lt_or_ge level looser with above | below
      · obtain rfl := Nat.le_antisymm isLooser above
        exact atLevel
      · exact inductionHypothesis below (loosen level atLevel)

theorem Phrase.loosen_of_le {keywords : Keywords} {level looser : Nat}
    {lexemes : List PlacedLexeme} {tree : Expression}
    (phrase : Phrase keywords level lexemes tree) (isLooser : looser ≤ level) :
    Phrase keywords looser lexemes tree :=
  Levels.of_le (fun level => Phrase keywords level lexemes tree)
    (fun _ tighter => .loosen tighter) isLooser phrase

theorem BinaryOperator.precedence_bounds (operator : BinaryOperator) :
    2 ≤ operator.precedence ∧ operator.precedence ≠ 12 ∧
      operator.precedence ≤ 13 := by
  cases operator with
  | logical operator | bitwise operator | arithmetic operator =>
      cases operator <;> decide
  | equality operator | relational operator | shift operator =>
      cases operator <;> decide
  | member =>
      decide

theorem BinaryOperator.precedence_le_of_ne_member {operator : BinaryOperator}
    (notMember : operator ≠ .member) : operator.precedence ≤ 11 := by
  cases operator with
  | logical operator | bitwise operator | arithmetic operator =>
      cases operator <;> decide
  | equality operator | relational operator | shift operator =>
      cases operator <;> decide
  | member =>
      exact absurd rfl notMember

/-! ## Waiting operators -/

namespace Pending

/-- The level of what a waiting operator makes of its operands. -/
def level : Pending → Nat
  | .unary _ _ => 12
  | .binary operator _ => operator.precedence
  | .group _ => 0

theorem bindsBefore_iff (next : BinaryOperator) (pending : Pending) :
    pending.bindsBefore next ↔ next.precedence ≤ pending.level := by
  cases pending with
  | unary | binary =>
      exact decide_eq_true_iff
  | group =>
      have bounds := next.precedence_bounds
      constructor
      · intro binds
        cases binds
      · intro below
        simp only [level] at below
        omega

end Pending

namespace Grouping

/-- What waits takes nothing that a binary operator of a level or a tighter one
takes. -/
def Admits (level : Nat) (pending : List Pending) : Prop :=
  ∀ top ∈ pending.head?, ∀ operator : BinaryOperator,
    level ≤ operator.precedence → top.level < operator.precedence

theorem Admits.tighten {level tighter : Nat} {pending : List Pending}
    (admits : Admits level pending) (isTighter : level ≤ tighter) :
    Admits tighter pending :=
  fun top isTop operator above =>
    admits top isTop operator (Nat.le_trans isTighter above)

/-- Waiting operators, latest first, turn some operands into others. -/
def Unwinds (limit : Nat) :
    List Pending → List MeasuredExpression → List MeasuredExpression → Prop
  | [], operands, result => operands = result
  | top :: rest, operands, result =>
      ∃ next, applyPending limit operands top = .ok next ∧
        Unwinds limit rest next result

theorem Unwinds.append {limit : Nat} {first second : List Pending}
    {operands middle result : List MeasuredExpression}
    (before : Unwinds limit first operands middle)
    (after : Unwinds limit second middle result) :
    Unwinds limit (first ++ second) operands result := by
  induction first generalizing operands with
  | nil =>
      obtain rfl := before
      exact after
  | cons top rest inductionHypothesis =>
      obtain ⟨next, applied, unwinds⟩ := before
      exact ⟨next, applied, inductionHypothesis unwinds⟩

/-- Accepted operators take their operands down to one that is not. -/
theorem reduceWhile_of_unwinds {limit : Nat} {accepts : Pending → Bool}
    {waiting pending : List Pending}
    {operands result : List MeasuredExpression}
    (unwinds : Unwinds limit waiting operands result)
    (accepted : ∀ top ∈ waiting, accepts top)
    (stopped : ∀ top ∈ pending.head?, ¬ accepts top) :
    reduceWhile limit accepts operands (waiting ++ pending) =
      .ok ⟨result, pending⟩ := by
  induction waiting generalizing operands with
  | nil =>
      obtain rfl := unwinds
      cases pending with
      | nil =>
          rfl
      | cons top rest =>
          rw [List.nil_append, reduceWhile, if_neg (stopped top rfl)]
  | cons top rest inductionHypothesis =>
      obtain ⟨next, applied, unwindsRest⟩ := unwinds
      rw [List.cons_append, reduceWhile,
        if_pos (accepted top List.mem_cons_self), applied]
      exact inductionHypothesis unwindsRest fun other isOther =>
        accepted other (List.mem_cons_of_mem _ isOther)

theorem addAll_append {keywords : Keywords} {limit : Nat}
    {state middle : Grouping} {first second : List PlacedLexeme}
    (added : addAll keywords limit state first = .ok middle) :
    addAll keywords limit state (first ++ second) =
      addAll keywords limit middle second := by
  induction first generalizing state with
  | nil =>
      cases added
      rfl
  | cons placed rest inductionHypothesis =>
      rw [addAll] at added
      rw [List.cons_append, addAll]
      cases next : add keywords limit state placed with
      | error error =>
          rw [next] at added
          cases added
      | ok state =>
          rw [next] at added
          exact inductionHypothesis added

end Grouping

end Formula
