import Formula.Proofs.Reduction.Recursion

/-!
# The structure of tokens

Whether a list of tokens is malformed depends on the tokens alone. Any two
algebras read a list without logical operators in step, so that one of them
finds it malformed where the other one does, unless a part fails before.
-/

namespace Formula

variable {σ α : Type}

/-- No operator of a list may leave out its right side. -/
def Token.NoneLogical (tokens : List Token) : Prop :=
  ∀ operator, Token.binary (.logical operator) ∉ tokens

theorem Token.NoneLogical.subset {tokens rest : List Token}
    (noneLogical : NoneLogical tokens) (isSubset : rest ⊆ tokens) :
    NoneLogical rest :=
  fun operator stands => noneLogical operator (isSubset stands)

/-! ## Values left out -/

namespace Frame

def forget : Frame α → Frame Unit
  | .unary operator => .unary operator
  | .left operator => .left operator
  | .right operator _ => .right operator ()

/-- No frame waits for the left side of a logical operator. -/
def NoneLogical (frames : List (Frame α)) : Prop :=
  ∀ operator, Frame.left (.logical operator) ∉ frames

theorem NoneLogical.cons {frame : Frame α} {frames : List (Frame α)}
    (notLogical : ∀ operator, frame ≠ .left (.logical operator))
    (noneLogical : NoneLogical frames) : NoneLogical (frame :: frames) := by
  rintro operator (_ | ⟨_, stands⟩)
  · exact notLogical operator rfl
  · exact noneLogical operator stands

theorem NoneLogical.tail {frame : Frame α} {frames : List (Frame α)}
    (noneLogical : NoneLogical (frame :: frames)) : NoneLogical frames :=
  fun operator stands =>
    noneLogical operator (List.mem_cons_of_mem frame stands)

end Frame

namespace Algebra

/-- The algebra in which no part fails. -/
def structural : Algebra Unit Unit where
  operand := fun _ state => (.ok (), state)
  unary := fun _ _ => .ok ()
  binary := fun _ _ _ => .ok ()
  member := fun _ _ => .ok ()
  decides? := fun _ _ => none

/-- No part reports a malformed expression. An operand is only asked for below
a limit. -/
structure NeverMalformed (algebra : Algebra σ α) (limit : Nat) : Prop where
  operand : 0 < limit → ∀ operand state fault,
    (algebra.operand operand state).1 ≠ .error (.malformed fault)
  unary : ∀ operator value fault,
    algebra.unary operator value ≠ .error (.malformed fault)
  binary : ∀ operator left right fault,
    algebra.binary operator left right ≠ .error (.malformed fault)
  member : ∀ owner name fault,
    algebra.member owner name ≠ .error (.malformed fault)

end Algebra

/-! ## Readings in step -/

/-- A result fails for a reason of its own, or the other result is the same but
for its value. -/
def InStep (result : Except Error α) (other : Except Error Unit) : Prop :=
  match result with
  | .ok _ => other = .ok ()
  | .error error =>
      ∀ fault, error = .malformed fault → other = .error (.malformed fault)

/-- So does a reduction, and the same tokens are left after its result. -/
def Reduction.InStep (reduction : Reduction σ α)
    (other : Reduction Unit Unit) : Prop :=
  Formula.InStep reduction.result other.result ∧
    ∀ value, reduction.result = .ok value → other.rest = reduction.rest

/-- So does what becomes of a result, and the same frames are left waiting. -/
def Resumption.InStep (resumption : Resumption α)
    (other : Resumption Unit) : Prop :=
  match resumption with
  | .failed error rest =>
      ∀ fault, error = .malformed fault →
        other = .failed (.malformed fault) rest
  | .complete _ rest => other = .complete () rest
  | .waiting frames depth rest =>
      other = .waiting (frames.map Frame.forget) depth rest

namespace Algebra

variable {algebra : Algebra σ α} {limit : Nat}

theorem structural_memberName_of_ok {owner value : α}
    {tokens rest : List Token}
    (named : algebra.memberName owner tokens = (.ok value, rest)) :
    structural.memberName () tokens = (.ok (), rest) := by
  unfold memberName at named
  split at named
  · cases named
  · obtain ⟨_, rfl⟩ := Prod.mk.inj named
    rfl
  · cases named

theorem structural_memberName_of_malformed {owner : α}
    {tokens rest : List Token} {fault : StructureFault}
    (never : ∀ name, algebra.member owner name ≠ .error (.malformed fault))
    (named : algebra.memberName owner tokens =
      (.error (.malformed fault), rest)) :
    structural.memberName () tokens = (.error (.malformed fault), rest) := by
  match tokens with
  | [] =>
      cases named
      rfl
  | .operand name :: after =>
      exact absurd (Prod.mk.inj named).1 (never name)
  | .unary operator :: after =>
      cases named
      rfl
  | .binary operator :: after =>
      cases named
      rfl

theorem memberName_suffix (algebra : Algebra σ α) (owner : α)
    (tokens : List Token) : (algebra.memberName owner tokens).2 <:+ tokens := by
  unfold memberName
  split
  · exact List.suffix_refl []
  · exact List.suffix_cons _ _
  · exact List.suffix_cons _ _

/-- Waiting frames take what they wait for in step. -/
theorem inStep_resume (never : algebra.NeverMalformed limit)
    (depth : Nat) (result : α) (tokens : List Token)
    (frames : List (Frame α)) (noneLogical : Frame.NoneLogical frames) :
    (algebra.resume limit depth result tokens frames).InStep
      (structural.resume limit depth () tokens
        (frames.map Frame.forget)) := by
  fun_induction resume algebra limit depth result tokens frames with
  | case1 depth result tokens =>
      rfl
  | case2 depth result tokens operator frames value _ inductionHypothesis =>
      exact inductionHypothesis noneLogical.tail
  | case3 depth result tokens operator frames error failed =>
      rintro fault rfl
      exact absurd failed (never.unary operator result fault)
  | case4 depth result tokens operator left frames value _
      inductionHypothesis =>
      exact inductionHypothesis noneLogical.tail
  | case5 depth result tokens operator left frames error failed =>
      rintro fault rfl
      exact absurd failed (never.binary operator left result fault)
  | case6 depth result tokens frames tooHigh =>
      rintro fault ⟨rfl⟩
      simp only [List.map_cons, Frame.forget, resume, if_pos tooHigh, tooDeep]
  | case7 depth result tokens frames inside value rest named
      inductionHypothesis =>
      simp only [List.map_cons, Frame.forget, resume, if_neg inside,
        structural_memberName_of_ok named]
      exact inductionHypothesis noneLogical.tail
  | case8 depth result tokens frames inside error rest named =>
      rintro fault rfl
      have unnamed := structural_memberName_of_malformed
        (fun name => never.member result name fault) named
      simp only [List.map_cons, Frame.forget, resume, if_neg inside, unnamed]
  | case9 _ _ _ operator | case10 _ _ _ operator | case11 _ _ _ operator =>
      exact absurd List.mem_cons_self (noneLogical operator)
  | case12 depth result tokens operator frames =>
      simp only [Resumption.InStep, List.map_cons, Frame.forget]
      cases operator with
      | member | logical => simp_all
      | _ => rfl

/-- What is left to read holds no logical operator, and none starts to wait. -/
theorem noneLogical_of_resume {depth waitingDepth : Nat} {result : α}
    {tokens rest : List Token} {frames waiting : List (Frame α)}
    (noneLogical : Frame.NoneLogical frames)
    (unread : Token.NoneLogical tokens)
    (resumed : algebra.resume limit depth result tokens frames =
      .waiting waiting waitingDepth rest) :
    Frame.NoneLogical waiting ∧ Token.NoneLogical rest := by
  fun_induction resume algebra limit depth result tokens frames with
  | case1 | case3 | case5 | case6 | case8 =>
      cases resumed
  | case2 depth result tokens operator frames value _ inductionHypothesis =>
      exact inductionHypothesis noneLogical.tail unread resumed
  | case4 depth result tokens operator left frames value _
      inductionHypothesis =>
      exact inductionHypothesis noneLogical.tail unread resumed
  | case7 depth result tokens frames _ value after named
      inductionHypothesis =>
      refine inductionHypothesis noneLogical.tail (unread.subset ?_) resumed
      have isSuffix := algebra.memberName_suffix result tokens
      rw [named] at isSuffix
      exact isSuffix.subset
  | case9 _ _ _ operator | case10 _ _ _ operator | case11 _ _ _ operator =>
      exact absurd List.mem_cons_self (noneLogical operator)
  | case12 depth result tokens operator frames =>
      cases resumed
      exact ⟨noneLogical.tail.cons (by simp), unread⟩

theorem structural_reduceFrom_operand (frames : List (Frame Unit))
    {depth : Nat} (inside : ¬ limit ≤ depth) (operand : Operand)
    (rest : List Token) :
    structural.reduceFrom limit frames depth () (.operand operand :: rest) =
      structural.proceed limit frames depth rest () () :=
  reduceFrom_operand_of_ok structural limit frames inside rfl rest

/-- Two algebras read the same tokens in step. -/
theorem inStep_reduceFrom (never : algebra.NeverMalformed limit)
    (frames : List (Frame α)) (depth : Nat) (state : σ) (tokens : List Token)
    (noneLogical : Frame.NoneLogical frames)
    (unread : Token.NoneLogical tokens) :
    (algebra.reduceFrom limit frames depth state tokens).InStep
      (structural.reduceFrom limit (frames.map Frame.forget) depth ()
        tokens) := by
  fun_induction reduceFrom algebra limit frames depth state tokens with
  | case1 frames depth state tokens tooHigh =>
      rw [reduceFrom.eq_def, if_pos tooHigh]
      exact ⟨fun fault isMalformed => by rw [isMalformed],
        fun value taken => by cases taken⟩
  | case2 frames depth state inside =>
      rw [reduceFrom.eq_def, if_neg inside]
      exact ⟨fun fault isMalformed => by rw [isMalformed],
        fun value taken => by cases taken⟩
  | case3 frames depth state inside operator rest inductionHypothesis =>
      rw [reduceFrom_unary _ _ _ inside]
      exact inductionHypothesis (noneLogical.cons (by simp))
        (unread.subset (List.subset_cons_self _ _))
  | case4 frames depth state inside operator rest inductionHypothesis =>
      rw [reduceFrom_binary _ _ _ inside]
      refine inductionHypothesis (noneLogical.cons ?_)
        (unread.subset (List.subset_cons_self _ _))
      rintro logical ⟨rfl⟩
      exact unread logical List.mem_cons_self
  | case5 frames depth state inside operand rest error next failed =>
      refine ⟨fun fault isMalformed => ?_, fun value taken => by cases taken⟩
      have reported := never.operand (by omega) operand state fault
      rw [failed, isMalformed] at reported
      exact absurd rfl reported
  | case6 frames depth state inside operand rest result next taken error
      remaining resumed =>
      rw [structural_reduceFrom_operand _ inside]
      have inStep := inStep_resume never depth result rest frames noneLogical
      rw [resumed] at inStep
      refine ⟨fun fault isMalformed => ?_, fun value taken => by cases taken⟩
      rw [proceed, inStep fault isMalformed]
  | case7 frames depth state inside operand rest result next taken final
      remaining resumed =>
      rw [structural_reduceFrom_operand _ inside]
      have inStep := inStep_resume never depth result rest frames noneLogical
      rw [resumed] at inStep
      have completed : structural.resume limit depth () rest
          (frames.map Frame.forget) = .complete () remaining := inStep
      rw [proceed, completed]
      exact ⟨rfl, fun _ _ => rfl⟩
  | case8 frames depth state inside operand rest result next taken waiting
      waitingDepth remaining resumed inductionHypothesis =>
      rw [structural_reduceFrom_operand _ inside]
      have inStep := inStep_resume never depth result rest frames noneLogical
      rw [resumed] at inStep
      have waits : structural.resume limit depth () rest
          (frames.map Frame.forget) =
            .waiting (waiting.map Frame.forget) waitingDepth remaining :=
        inStep
      have unreadRest := unread.subset (List.subset_cons_self _ _)
      obtain ⟨noneWaiting, unreadLater⟩ :=
        noneLogical_of_resume noneLogical unreadRest resumed
      rw [proceed, waits]
      exact inductionHypothesis noneWaiting unreadLater

/-- Every algebra whose parts do not report a malformed expression finds a list
without logical operators malformed as the structure of the list does, unless
a part fails. -/
theorem inStep_reduce (never : algebra.NeverMalformed limit) (state : σ)
    {tokens : List Token} (noneLogical : Token.NoneLogical tokens) :
    InStep (algebra.reduce limit state tokens).result
      (structural.reduce limit () tokens).result := by
  have read : (algebra.reduceFrom limit [] 0 state tokens).InStep
      (structural.reduceFrom limit [] 0 () tokens) :=
    inStep_reduceFrom never [] 0 state tokens (by simp [Frame.NoneLogical])
      noneLogical
  obtain ⟨inStep, sameRest⟩ := read
  unfold reduce
  by_cases noTokens : tokens.isEmpty
  · rw [if_pos noTokens, if_pos noTokens]
    rintro fault ⟨rfl⟩
    rfl
  rw [if_neg noTokens, if_neg noTokens]
  dsimp only
  cases result : (algebra.reduceFrom limit [] 0 state tokens).result with
  | error error =>
      rw [result] at inStep
      dsimp only
      rw [result]
      rintro fault rfl
      have failed := inStep fault rfl
      rw [failed]
      exact failed
  | ok value =>
      rw [result] at inStep
      have taken : (structural.reduceFrom limit [] 0 () tokens).result =
        .ok () := inStep
      rw [taken, sameRest value result]
      dsimp only
      by_cases complete :
          (algebra.reduceFrom limit [] 0 state tokens).rest.isEmpty
      · rw [if_pos complete, if_pos complete, result]
        exact taken
      · rw [if_neg complete, if_neg complete]
        rintro fault ⟨rfl⟩
        rfl

end Algebra

/-! ## Two readings of one list -/

namespace InStep

variable {β : Type} {result : Except Error α} {other : Except Error β}
  {structure? : Except Error Unit}

theorem map (inStep : InStep result structure?) (next : α → β) :
    InStep (result.map next) structure? := by
  cases result <;> exact inStep

/-- Two readings that fail for the structure of a list fail for the same
reason. -/
theorem fault_eq {first second : StructureFault}
    (inStep : InStep result structure?) (otherInStep : InStep other structure?)
    (failed : result = .error (.malformed first))
    (otherFailed : other = .error (.malformed second)) : first = second := by
  subst failed otherFailed
  have isFirst := inStep first rfl
  have isSecond := otherInStep second rfl
  cases isFirst.symm.trans isSecond
  rfl

/-- A reading does not fail for the structure of a list that another one finds
sound. -/
theorem ne_malformed {value : α} (inStep : InStep result structure?)
    (otherInStep : InStep other structure?) (succeeds : result = .ok value)
    (fault : StructureFault) : other ≠ .error (.malformed fault) := by
  rintro rfl
  subst succeeds
  have isSound : structure? = .ok () := inStep
  cases isSound.symm.trans (otherInStep fault rfl)

end InStep

end Formula
