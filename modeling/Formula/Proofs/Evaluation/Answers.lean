import Formula.Language
import Formula.Proofs.Evaluation.Recursion
import Mathlib.Control.Monad.Basic

/-!
# The answers that matter

An evaluation depends on its variables through the answers that it receives and
through nothing else. Variables that answer the questions of one run alike lead
to the same run.
-/

namespace Formula

/-! ## Operands with another meaning -/

namespace Algebra

variable {σ α : Type} {algebra : Algebra σ α}
  {operand : Operand → σ → Except Error α × σ}

theorem memberName_with_operand (owner : α) (tokens : List Token) :
    { algebra with operand := operand }.memberName owner tokens =
      algebra.memberName owner tokens := by
  unfold memberName
  split <;> rfl

/-- Waiting operators do not ask what operands mean. -/
theorem resume_with_operand (limit depth : Nat) (result : α)
    (tokens : List Token) (frames : List (Frame α)) :
    { algebra with operand := operand }.resume limit depth result tokens
        frames =
      algebra.resume limit depth result tokens frames := by
  fun_induction resume algebra limit depth result tokens frames with
  | case7 depth result tokens frames inside value rest named
      inductionHypothesis =>
      rw [resume, if_neg inside, memberName_with_operand, named]
      exact inductionHypothesis
  | case8 depth result tokens frames inside error rest named =>
      rw [resume, if_neg inside, memberName_with_operand, named]
  | case1 | case2 | case3 | case4 | case5 | case6 | case9 | case10 | case11
  | case12 =>
      simp_all [resume]

/-- An operand may mean something else where a run does not come to. What holds
of the state at the end of the run must have held at every operand before, and
must make both meanings the same there. -/
theorem reduceFrom_with_operand {limit : Nat} {holds : σ → Prop}
    (agrees : ∀ atom state, holds (algebra.operand atom state).2 →
      holds state ∧ operand atom state = algebra.operand atom state)
    (frames : List (Frame α)) (depth : Nat) (state : σ) (tokens : List Token)
    (ends : holds (algebra.reduceFrom limit frames depth state tokens).state) :
    holds state ∧
      { algebra with operand := operand }.reduceFrom limit frames depth state
          tokens =
        algebra.reduceFrom limit frames depth state tokens := by
  fun_induction reduceFrom algebra limit frames depth state tokens with
  | case1 frames depth state tokens tooHigh =>
      rw [reduceFrom.eq_def, if_pos tooHigh]
      exact ⟨ends, rfl⟩
  | case2 frames depth state inside =>
      rw [reduceFrom.eq_def, if_neg inside]
      exact ⟨ends, rfl⟩
  | case3 frames depth state inside operator rest inductionHypothesis =>
      rw [reduceFrom_unary _ _ _ inside]
      exact inductionHypothesis ends
  | case4 frames depth state inside operator rest inductionHypothesis =>
      rw [reduceFrom_binary _ _ _ inside]
      exact inductionHypothesis ends
  | case5 frames depth state inside atom rest error next failed =>
      have atOperand := agrees atom state (by rw [failed]; exact ends)
      refine ⟨atOperand.1, ?_⟩
      rw [reduceFrom.eq_def, if_neg inside]
      simp only [atOperand.2, failed]
  | case6 frames depth state inside atom rest result next taken error
      remaining resumed =>
      have atOperand := agrees atom state (by rw [taken]; exact ends)
      refine ⟨atOperand.1, ?_⟩
      rw [reduceFrom_operand_of_ok _ _ _ inside (atOperand.2.trans taken),
        proceed, resume_with_operand, resumed]
  | case7 frames depth state inside atom rest result next taken final
      remaining resumed =>
      have atOperand := agrees atom state (by rw [taken]; exact ends)
      refine ⟨atOperand.1, ?_⟩
      rw [reduceFrom_operand_of_ok _ _ _ inside (atOperand.2.trans taken),
        proceed, resume_with_operand, resumed]
  | case8 frames depth state inside atom rest result next taken waiting
      waitingDepth remaining resumed inductionHypothesis =>
      obtain ⟨later, same⟩ := inductionHypothesis ends
      have atOperand := agrees atom state (by rw [taken]; exact later)
      refine ⟨atOperand.1, ?_⟩
      rw [reduceFrom_operand_of_ok _ _ _ inside (atOperand.2.trans taken),
        proceed, resume_with_operand, resumed]
      exact same

theorem reduce_with_operand {limit : Nat} {holds : σ → Prop}
    (agrees : ∀ atom state, holds (algebra.operand atom state).2 →
      holds state ∧ operand atom state = algebra.operand atom state)
    (state : σ) (tokens : List Token)
    (ends : holds (algebra.reduce limit state tokens).state) :
    { algebra with operand := operand }.reduce limit state tokens =
      algebra.reduce limit state tokens := by
  have sameState : tokens ≠ [] →
      (algebra.reduce limit state tokens).state =
        (algebra.reduceFrom limit [] 0 state tokens).state := by
    intro nonempty
    simp only [reduce, List.isEmpty_iff, if_neg nonempty]
    split
    · rfl
    · split <;> rfl
  by_cases noTokens : tokens = []
  · subst noTokens
    rfl
  · rw [sameState noTokens] at ends
    have same := (reduceFrom_with_operand agrees [] 0 state tokens ends).2
    simp only [reduce, same]

end Algebra

/-! ## Variables that answer alike -/

namespace Variables

variable {members : ObjectMembers} {limit : Nat} {first second : Variables}

/-- Some names stand for the same operands, or for none, in both. -/
def AgreeOn (first second : Variables) (names : List String) : Prop :=
  ∀ name ∈ names, second.get? name = first.get? name

theorem AgreeOn.subset {names others : List String}
    (agree : first.AgreeOn second names) (isSubset : others ⊆ names) :
    first.AgreeOn second others :=
  fun name isOther => agree name (isSubset isOther)

theorem resolver_eq_of_agreeOn {name : String} {asked next : List String}
    {answer : Except Error Operand}
    (called : first.resolver name asked = (answer, next))
    (agree : first.AgreeOn second next) :
    first.AgreeOn second asked ∧
      second.resolver name asked = (answer, next) := by
  have isAsked : next = name :: asked := by
    unfold resolver at called
    split at called <;> cases called <;> rfl
  subst isAsked
  refine ⟨agree.subset (List.subset_cons_self _ _), ?_⟩
  rw [← called, resolver, resolver, agree name List.mem_cons_self]

/-- A chain of references that agree is followed in the same way. -/
theorem follow_eq_of_agreeOn (limit : Nat) :
    ∀ (hops : Nat) (atom : Operand) (asked : List String),
      first.AgreeOn second (first.resolver.follow limit hops atom asked).2 →
        first.AgreeOn second asked ∧
          second.resolver.follow limit hops atom asked =
            first.resolver.follow limit hops atom asked := by
  intro hops
  induction hops with
  | zero =>
      intro atom asked agree
      cases atom <;> exact ⟨agree, rfl⟩
  | succ hops inductionHypothesis =>
      intro atom asked agree
      cases atom with
      | constant value =>
          exact ⟨agree, rfl⟩
      | reference name =>
          obtain ⟨⟨answer, next⟩, called⟩ :
              ∃ outcome, first.resolver name asked = outcome := ⟨_, rfl⟩
          simp only [Resolver.follow, called] at agree ⊢
          cases answer with
          | error error =>
              obtain ⟨before, same⟩ := resolver_eq_of_agreeOn called agree
              exact ⟨before, by rw [same]⟩
          | ok operand =>
              obtain ⟨between, follows⟩ :=
                inductionHypothesis operand next agree
              obtain ⟨before, same⟩ := resolver_eq_of_agreeOn called between
              exact ⟨before, by rw [same]; exact follows⟩

/-- Variables that agree on the names which a run asked for give the same run
on the same tokens. -/
theorem evaluate_eq_of_agreeOn {tokens : List Token}
    (agree : first.AgreeOn second
      (first.evaluate members limit tokens).state) :
    second.evaluate members limit tokens =
      first.evaluate members limit tokens := by
  have agrees (atom : Operand) (asked : List String) :
      first.AgreeOn second
          ((evaluation members first.resolver limit).operand atom asked).2 →
        first.AgreeOn second asked ∧
          second.resolver.follow limit limit atom asked =
            (evaluation members first.resolver limit).operand atom asked :=
    follow_eq_of_agreeOn limit limit atom asked
  exact Algebra.reduce_with_operand agrees [] tokens agree

/-! ## Names within reach -/

/-- Answers for the variables without a record. -/
def answers (bindings : Variables) : Resolver Unit :=
  fun name state =>
    match bindings.get? name with
    | some operand => (.ok operand, state)
    | none => (.error (.unknownReference name), state)

theorem tracks_answers (bindings : Variables) :
    bindings.resolver.Tracks bindings.answers
      fun _ asked => asked.reverse := by
  intro name state asked
  have reversed : (asked ++ [name]).reverse = name :: asked.reverse :=
    List.reverse_concat
  simp only [resolver, answers, reversed]
  cases bindings.get? name <;> rfl

end Variables

/-- The names that the evaluation of an expression may ask for, below some
operators. They are those on the chains of its references, apart from a right
side that its left side decides and from the names of members. -/
def Expression.namesInReach (members : ObjectMembers) (bindings : Variables)
    (limit : Nat) : Expression → Nat → List String
  | .operand atom, _ => (atom.course bindings.answers limit limit ()).asked
  | .unary _ inner, depth =>
      inner.namesInReach members bindings limit (depth + 1)
  | .binary .member owner _, depth =>
      owner.namesInReach members bindings limit (depth + 1)
  | .binary (.logical operator) left right, depth =>
      let first := left.course members bindings.answers limit (depth + 1) ()
      let decided? :=
        first.result.toOption.bind (Constant.decides? operator)
      left.namesInReach members bindings limit (depth + 1) ++
        if decided?.isSome then []
        else right.namesInReach members bindings limit (depth + 1)
  | .binary _ left right, depth =>
      left.namesInReach members bindings limit (depth + 1) ++
        right.namesInReach members bindings limit (depth + 1)

theorem Course.asked_andThen_subset {σ : Type} {first : Course σ}
    {next : Constant → σ → Course σ} {names others : List String}
    (before : first.asked ⊆ names)
    (after : ∀ value, first.result = .ok value →
      (next value first.state).asked ⊆ others) :
    (first.andThen next).asked ⊆ names ++ others := by
  obtain ⟨error | value, asked, state⟩ := first
  · exact List.subset_append_of_subset_left others before
  · exact List.append_subset.2
      ⟨List.subset_append_of_subset_left others before,
        List.subset_append_of_subset_right names (after value rfl)⟩

/-- Evaluation stays within reach. -/
theorem Expression.asked_course_subset (members : ObjectMembers)
    (bindings : Variables) (limit : Nat) (expression : Expression) :
    ∀ depth,
      (expression.course members bindings.answers limit depth ()).asked ⊆
        expression.namesInReach members bindings limit depth := by
  have nothing (result : Except Error Constant) (names : List String) :
      (Course.finished result ()).asked ⊆ names := List.nil_subset names
  induction expression with
  | operand atom =>
      intro depth
      rw [course, namesInReach]
      split
      · exact nothing _ _
      · exact List.Subset.refl _
  | unary operator inner inductionHypothesis =>
      intro depth
      rw [course, namesInReach]
      split
      · exact nothing _ _
      · rw [← List.append_nil (namesInReach _ _ _ inner _)]
        exact Course.asked_andThen_subset (inductionHypothesis _)
          fun value _ => nothing _ _
  | binary operator left right leftHypothesis rightHypothesis =>
      intro depth
      by_cases tooHigh : limit ≤ depth
      · rw [course.eq_def, if_pos tooHigh]
        exact nothing _ _
      cases operator with
      | member =>
          rw [course, namesInReach, if_neg tooHigh]
          rw [← List.append_nil (namesInReach _ _ _ left _)]
          exact Course.asked_andThen_subset (leftHypothesis _)
            fun value _ => nothing _ _
      | logical operator =>
          rw [course, namesInReach, if_neg tooHigh]
          refine Course.asked_andThen_subset (leftHypothesis _) ?_
          intro value taken
          simp only [taken, Except.toOption, Option.bind_some]
          cases Constant.decides? operator value with
          | some result =>
              exact nothing _ _
          | none =>
              simp only [Option.isSome_none, Bool.false_eq_true, if_false]
              rw [← List.append_nil (namesInReach _ _ _ right _)]
              exact Course.asked_andThen_subset (rightHypothesis _)
                fun value _ => nothing _ _
      | bitwise | equality | relational | shift | arithmetic =>
          rw [course.eq_def, namesInReach, if_neg tooHigh]
          · refine Course.asked_andThen_subset (leftHypothesis _) ?_
            intro value taken
            rw [← List.append_nil (namesInReach _ _ _ right _)]
            exact Course.asked_andThen_subset (rightHypothesis _)
              fun value _ => nothing _ _
          all_goals simp

theorem Variables.asked_subset_namesInReach (members : ObjectMembers)
    (bindings : Variables) (limit : Nat) (expression : Expression) :
    (bindings.evaluate members limit expression.tokens).state ⊆
      expression.namesInReach members bindings limit 0 := by
  have tracked := outcome_reduce_evaluation_tracked bindings.tracks_answers
    members limit expression () []
  have asked : (bindings.evaluate members limit expression.tokens).state =
      (expression.course members bindings.answers limit 0 ()).asked.reverse :=
    congrArg Prod.snd tracked
  rw [asked]
  exact fun name isAsked =>
    expression.asked_course_subset members bindings limit 0
      (List.mem_reverse.1 isAsked)

/-! ## Unreached variables -/

/-- Variables that agree on the names which evaluation asked for give the same
result, the same tokens left over and the same questions in the same order,
whatever the tokens are, and so for a whole source. Names in a right side that
is left out and names of members are not among those in reach, on which it is
enough to agree. -/
theorem unreached_variables_irrelevant (members : ObjectMembers)
    (first second : Variables) :
    (∀ (limit : Nat) (tokens : List Token),
        first.AgreeOn second (first.evaluate members limit tokens).state →
          second.evaluate members limit tokens =
            first.evaluate members limit tokens) ∧
      (∀ (limit : Nat) (tree : Expression),
        first.AgreeOn second (tree.namesInReach members first limit 0) →
          second.evaluate members limit tree.tokens =
            first.evaluate members limit tree.tokens) ∧
      ∀ (language : Language) (source : String),
        first.AgreeOn second (language.evaluate members first source).2 →
          language.evaluate members second source =
            language.evaluate members first source := by
  refine ⟨fun limit tokens => Variables.evaluate_eq_of_agreeOn,
    fun limit tree agree => ?_, fun language source agree => ?_⟩
  · have isSubset := first.asked_subset_namesInReach members limit tree
    exact Variables.evaluate_eq_of_agreeOn (agree.subset isSubset)
  · unfold Language.evaluate Language.evaluateWith at agree ⊢
    cases parsed : language.parse source with
    | error error =>
        rfl
    | ok tokens =>
        rw [parsed] at agree
        have same : second.evaluate members language.limit tokens =
            first.evaluate members language.limit tokens :=
          Variables.evaluate_eq_of_agreeOn agree
        simp only [Variables.evaluate] at same
        simp only [same]

/-- The tree of `x && p.size == 2 || z`, where `x` stands for `y` and only `z`
and `size` stand for something else in the second variables. -/
theorem disjunction_with_other_unreached_variables :
    let first : Variables :=
      .ofList [("x", .reference "y"), ("y", .constant (.boolean true)),
        ("p", .constant (.object ⟨7, "Box", "a box"⟩)),
        ("size", .constant .null)]
    let second : Variables :=
      .ofList [("x", .reference "y"), ("y", .constant (.boolean true)),
        ("p", .constant (.object ⟨7, "Box", "a box"⟩)),
        ("size", .reference "size"), ("z", .constant (.boolean false))]
    let members : ObjectMembers := fun _ _ => some (.number (.int 2))
    let tree : Expression :=
      .binary (.logical .or)
        (.binary (.logical .and) (.operand (.reference "x"))
          (.binary (.equality .equal)
            (.binary .member (.operand (.reference "p"))
              (.operand (.reference "size")))
            (.operand (.constant (.number (.int 2))))))
        (.operand (.reference "z"))
    first.AgreeOn second (tree.namesInReach members first 9 0) ∧
      (second.evaluate members 9 tree.tokens).outcome =
        (.ok (.boolean true), ["p", "y", "x"]) := by
  intro first second members tree
  have inReach : tree.namesInReach members first 9 0 = ["x", "y", "p"] := by
    decide +kernel
  have agree : first.AgreeOn second
      (tree.namesInReach members first 9 0) := by
    rw [inReach]
    unfold Variables.AgreeOn
    decide
  refine ⟨agree, ?_⟩
  rw [(unreached_variables_irrelevant members first second).2.1 9 tree agree]
  decide +kernel

end Formula
