import Formula.Proofs.Evaluation.Errors
import Formula.Proofs.Lowering.Errors
import Formula.Proofs.Source.Grammar

/-!
# Limits on nesting

Reading, evaluation and compilation count the levels of an expression alike.
What is read under a limit on its height is neither evaluated nor compiled to
the error that operators are nested too deep.
-/

namespace Formula

/-- A source is read under a limit as under a greater one, if its expression is
not too high. -/
theorem Language.parse_eq_ok_iff_of_le {limit other : Nat}
    (wider : limit ≤ other) {keywords : Keywords} {source : String}
    {tokens : List Token} :
    Language.parse ⟨keywords, limit⟩ source = .ok tokens ↔
      Language.parse ⟨keywords, other⟩ source = .ok tokens ∧
        ∃ tree : Expression, tree.tokens = tokens ∧ tree.height ≤ limit := by
  simp only [Language.parse_eq_ok_iff, Expression.ofSource_eq_ok_iff]
  constructor
  · rintro ⟨tree, ⟨spells, fits⟩, rfl⟩
    exact ⟨⟨tree, ⟨spells, Nat.le_trans fits wider⟩, rfl⟩, tree, rfl, fits⟩
  · rintro ⟨⟨tree, ⟨spells, _⟩, rfl⟩, same, tokensEq, fits⟩
    obtain rfl := Expression.tokens_injective tokensEq
    exact ⟨same, ⟨spells, fits⟩, rfl⟩

section Nesting

variable {limit depth : Nat} {expression : Expression}

/-- Evaluation does not find a tree within the limit too deep. -/
theorem reports_of_tooDeep_evaluation {σ : Type} {objects : ObjectMembers}
    {resolver : Resolver σ} {state : σ} (fits : expression.height ≤ limit)
    (failed : ((evaluation objects resolver limit).reduce limit state
      expression.tokens).result = .error (Algebra.tooDeep depth)) :
    resolver.Reports (Algebra.tooDeep depth) := by
  have outcome : ((evaluation objects resolver limit).reduce limit state
      expression.tokens).outcome = (.error (Algebra.tooDeep depth), _) :=
    Prod.ext failed rfl
  rcases cases_of_reduce_evaluation (.malformed _) fits outcome with
    reports | ⟨_, _, _, _, isEndless, _⟩ | ⟨isMissing, _⟩
  · exact reports
  · cases isEndless
  · cases isMissing

/-- The compiler does not find a tree within the limit too deep. -/
theorem reports_of_tooDeep_compilation {locals : LocalMap}
    {members : MemberTypes} (fits : expression.height ≤ limit)
    (failed : Code.ofTokens locals members limit expression.tokens =
      .error (Algebra.tooDeep depth)) :
    members.Reports (Algebra.tooDeep depth) := by
  rcases Code.cases_of_ofTokens (.malformed _) fits failed with
    reports | ⟨isMissing, _⟩
  · exact reports
  · cases isMissing

end Nesting

/-- Under a limit, a source is read and a tree is compiled exactly if they are
under a greater limit and the tree has no more levels than the limit. Such a
tree is too deep for neither evaluation nor compilation, if the resolver and
the types of members do not say so themselves, and so are the tokens of every
source that is read under the limit. A value that is found under the limit is
found under the greater one after the same questions. -/
theorem levels_counted_alike {limit other : Nat} (wider : limit ≤ other) :
    (∀ (keywords : Keywords) (source : String) (tokens : List Token),
        Language.parse ⟨keywords, limit⟩ source = .ok tokens ↔
          Language.parse ⟨keywords, other⟩ source = .ok tokens ∧
            ∃ tree : Expression,
              tree.tokens = tokens ∧ tree.height ≤ limit) ∧
      (∀ (locals : LocalMap) (members : MemberTypes) (tree : Expression)
          (code : Code),
        Code.ofTokens locals members limit tree.tokens = .ok code ↔
          Code.ofTokens locals members other tree.tokens = .ok code ∧
            tree.height ≤ limit) ∧
      (∀ (σ : Type) (objects : ObjectMembers) (resolver : Resolver σ)
          (state : σ),
        (∀ (tree : Expression) (depth : Nat), tree.height ≤ limit →
          ((evaluation objects resolver limit).reduce limit state
              tree.tokens).result = .error (Algebra.tooDeep depth) →
            resolver.Reports (Algebra.tooDeep depth)) ∧
        ∀ (tokens : List Token) (value : Constant),
          ((evaluation objects resolver limit).reduce limit state
              tokens).result = .ok value →
            ((evaluation objects resolver other).reduce other state
                tokens).outcome =
              ((evaluation objects resolver limit).reduce limit state
                tokens).outcome ∧
            ((evaluation objects resolver.recording other).reduce other
                (state, []) tokens).outcome =
              ((evaluation objects resolver.recording limit).reduce limit
                (state, []) tokens).outcome) ∧
      ∀ (keywords : Keywords) (source : String) (tokens : List Token),
        Language.parse ⟨keywords, limit⟩ source = .ok tokens →
          (∀ (σ : Type) (objects : ObjectMembers) (resolver : Resolver σ)
              (state : σ) (depth : Nat),
            ((evaluation objects resolver limit).reduce limit state
                tokens).result = .error (Algebra.tooDeep depth) →
              resolver.Reports (Algebra.tooDeep depth)) ∧
          ∀ (locals : LocalMap) (members : MemberTypes) (depth : Nat),
            Code.ofTokens locals members limit tokens =
                .error (Algebra.tooDeep depth) →
              members.Reports (Algebra.tooDeep depth) := by
  refine ⟨fun keywords source tokens => Language.parse_eq_ok_iff_of_le wider,
    fun locals members tree code => Code.ofTokens_eq_ok_iff_of_le wider,
    fun σ objects resolver state => ⟨?_, ?_⟩, ?_⟩
  · intro tree depth fits failed
    exact reports_of_tooDeep_evaluation fits failed
  · intro tokens value succeeds
    refine ⟨reduce_evaluation_eq_of_le wider succeeds, ?_⟩
    obtain ⟨tree, rfl⟩ :=
      (evaluation objects resolver limit).exists_eq_tokens_of_reduce limit
        succeeds
    have recorded := reduce_evaluation_recording objects resolver limit state
      tree
    exact reduce_evaluation_eq_of_le wider (recorded.trans succeeds)
  · intro keywords source tokens parsed
    obtain ⟨_, tree, rfl, fits⟩ :=
      (Language.parse_eq_ok_iff_of_le (Nat.le_refl limit)).1 parsed
    exact ⟨fun σ objects resolver state depth failed =>
        reports_of_tooDeep_evaluation fits failed,
      fun locals members depth failed =>
        reports_of_tooDeep_compilation fits failed⟩

/-- The tokens of `-x`, where `x` stands for `y` and `y` for a number. -/
theorem negated_chain_under_greater_limit :
    let tokens : List Token :=
      [.unary .negate, .operand (.reference "x")]
    let resolver : Resolver Unit := fun name state =>
      (.ok (if name = "x" then .reference "y"
        else .constant (.number (.int 5))), state)
    2 ≤ 3 ∧
      ((evaluation (fun _ _ => none) resolver.recording 3).reduce 3 ((), [])
        tokens).outcome = (.ok (.number (.int (-5))), (), ["x", "y"]) := by
  intro tokens resolver
  have succeeds : ((evaluation (fun _ _ => none) resolver 2).reduce 2 ()
      tokens).result = .ok (.number (.int (-5))) := by
    cbv
  have recorded : ((evaluation (fun _ _ => none) resolver.recording 2).reduce 2
      ((), []) tokens).outcome =
        (.ok (.number (.int (-5))), (), ["x", "y"]) := by
    cbv
  have wider : 2 ≤ 3 := by
    decide
  have alike := (levels_counted_alike wider).2.2.1 Unit (fun _ _ => none)
    resolver ()
  exact ⟨wider, (alike.2 tokens _ succeeds).2.trans recorded⟩

end Formula
