import Formula.Token

/-!
Reducing a list of tokens to one result. An operator is followed by its
operands, so reading the list is enough to rebuild the tree: operators that
still miss an operand wait as frames, latest first. What the parts of an
expression mean is left to an algebra, so that evaluation and typing read lists
of tokens, and fail on malformed ones, in the same way.
-/

namespace Formula

/-- What the parts of an expression mean. Operands may read and change a
state; the other parts depend on results alone. A logical operator may be
decided by its left side. -/
structure Algebra (σ α : Type) where
  operand : Operand → σ → Except Error α × σ
  unary : UnaryOperator → α → Except Error α
  binary : BinaryOperator → α → α → Except Error α
  member : α → Operand → Except Error α
  decides? : LogicalOperator → α → Option α

/-- An operator that misses an operand: its only one, its left one, or, with
the left one known, its right one. -/
inductive Frame (α : Type)
  | unary (operator : UnaryOperator)
  | left (operator : BinaryOperator)
  | right (operator : BinaryOperator) (left : α)

/-- The outcome of a reduction: a result or an error, the tokens that were not
read, and the state at the end. -/
structure Reduction (σ α : Type) where
  result : Except Error α
  rest : List Token
  state : σ

/-- Removes tokens while expressions are pending. Each token begins one of them
and brings in those that it takes; `discarded` tokens were removed before. -/
def discardPending :
    Nat → Nat → List Token → Except Error Nat × List Token
  | 0, discarded, tokens => (.ok discarded, tokens)
  | _ + 1, _, [] => (.error (.malformed .missingOperand), [])
  | pending + 1, discarded, token :: rest =>
      discardPending (pending + token.arity) (discarded + 1) rest

/-- Removes one complete expression without a look at what it means. The result
is the number of its tokens. -/
def discardExpression (tokens : List Token) :
    Except Error Nat × List Token :=
  discardPending 1 0 tokens

theorem length_discardPending_le (pending discarded : Nat)
    (tokens : List Token) :
    (discardPending pending discarded tokens).2.length ≤ tokens.length := by
  fun_induction discardPending pending discarded tokens with
  | case1 | case2 => exact Nat.le_refl _
  | case3 _ _ _ _ inductionHypothesis =>
      exact Nat.le_succ_of_le inductionHypothesis

theorem length_discardExpression_le (tokens : List Token) :
    (discardExpression tokens).2.length ≤ tokens.length :=
  length_discardPending_le 1 0 tokens

/-- What becomes of a result handed to the waiting operators. -/
inductive Resumption (α : Type)
  | failed (error : Error) (rest : List Token)
  | complete (result : α) (rest : List Token)
  | waiting (frames : List (Frame α)) (depth : Nat) (rest : List Token)

def Resumption.rest {α : Type} : Resumption α → List Token
  | .failed _ rest => rest
  | .complete _ rest => rest
  | .waiting _ _ rest => rest

namespace Algebra

variable {σ α : Type}

def tooDeep (limit : Nat) : Error :=
  .malformed (.nestedTooDeep limit)

def memberName (algebra : Algebra σ α) (owner : α) :
    List Token → Except Error α × List Token
  | [] => (.error (.malformed .missingOperand), [])
  | .operand name :: rest => (algebra.member owner name, rest)
  | _ :: rest => (.error (.malformed .missingMemberName), rest)

theorem length_memberName_le (algebra : Algebra σ α) (owner : α)
    (tokens : List Token) :
    (algebra.memberName owner tokens).2.length ≤ tokens.length := by
  unfold memberName
  split <;> simp

/-- Hands a result to the waiting operators until one needs a right operand.
`depth` is the number of frames. -/
def resume (algebra : Algebra σ α) (limit : Nat) (depth : Nat) (result : α)
    (tokens : List Token) : List (Frame α) → Resumption α
  | [] => .complete result tokens
  | .unary operator :: frames =>
      match algebra.unary operator result with
      | .ok result => algebra.resume limit (depth - 1) result tokens frames
      | .error error => .failed error tokens
  | .right operator left :: frames =>
      match algebra.binary operator left result with
      | .ok result => algebra.resume limit (depth - 1) result tokens frames
      | .error error => .failed error tokens
  | .left .member :: frames =>
      if limit ≤ depth then .failed (tooDeep limit) tokens
      else
        match algebra.memberName result tokens with
        | (.ok result, rest) =>
            algebra.resume limit (depth - 1) result rest frames
        | (.error error, rest) => .failed error rest
  | .left (.logical operator) :: frames =>
      match algebra.decides? operator result with
      | some result =>
          match discardExpression tokens with
          | (.ok _, rest) =>
              algebra.resume limit (depth - 1) result rest frames
          | (.error error, rest) => .failed error rest
      | none =>
          .waiting (.right (.logical operator) result :: frames) depth tokens
  | .left operator :: frames =>
      .waiting (.right operator result :: frames) depth tokens

theorem length_resume_le (algebra : Algebra σ α) (limit depth : Nat)
    (result : α) (tokens : List Token) (frames : List (Frame α)) :
    (algebra.resume limit depth result tokens frames).rest.length ≤
      tokens.length := by
  fun_induction resume algebra limit depth result tokens frames with
  | case1 | case3 | case5 | case6 | case11 | case12 => exact Nat.le_refl _
  | case2 _ _ _ _ _ _ _ inductionHypothesis => exact inductionHypothesis
  | case4 _ _ _ _ _ _ _ _ inductionHypothesis => exact inductionHypothesis
  | case7 depth result tokens frames _ next rest read inductionHypothesis =>
      have := algebra.length_memberName_le result tokens
      rw [read] at this
      exact Nat.le_trans inductionHypothesis this
  | case8 depth result tokens frames _ error rest read =>
      have := algebra.length_memberName_le result tokens
      rw [read] at this
      exact this
  | case9 _ _ tokens _ _ _ _ _ _ discarded inductionHypothesis =>
      have := length_discardExpression_le tokens
      rw [discarded] at this
      exact Nat.le_trans inductionHypothesis this
  | case10 _ _ tokens _ _ _ _ _ _ discarded =>
      have := length_discardExpression_le tokens
      rw [discarded] at this
      exact this

/-- Reads one expression. `depth` is the number of frames; an operand below
`limit` operators is an error, found before the operand is read. -/
def reduceFrom (algebra : Algebra σ α) (limit : Nat) (frames : List (Frame α))
    (depth : Nat) (state : σ) (tokens : List Token) : Reduction σ α :=
  if limit ≤ depth then ⟨.error (tooDeep limit), tokens, state⟩
  else
    match tokens with
    | [] => ⟨.error (.malformed .missingOperand), [], state⟩
    | .unary operator :: rest =>
        algebra.reduceFrom limit (.unary operator :: frames) (depth + 1) state
          rest
    | .binary operator :: rest =>
        algebra.reduceFrom limit (.left operator :: frames) (depth + 1) state
          rest
    | .operand operand :: rest =>
        match algebra.operand operand state with
        | (.error error, state) => ⟨.error error, rest, state⟩
        | (.ok result, state) =>
            match _resumed : algebra.resume limit depth result rest frames with
            | .failed error remaining => ⟨.error error, remaining, state⟩
            | .complete final remaining => ⟨.ok final, remaining, state⟩
            | .waiting waitingFrames waitingDepth remaining =>
                algebra.reduceFrom limit waitingFrames waitingDepth state
                  remaining
termination_by tokens.length
decreasing_by
  · simp
  · simp
  · have := algebra.length_resume_le limit depth result rest frames
    rw [_resumed] at this
    exact Nat.lt_succ_of_le this

/-- Reduces a list that holds exactly one expression. -/
def reduce (algebra : Algebra σ α) (limit : Nat) (state : σ)
    (tokens : List Token) : Reduction σ α :=
  if tokens.isEmpty then ⟨.error (.malformed .empty), [], state⟩
  else
    let reduction := algebra.reduceFrom limit [] 0 state tokens
    match reduction.result with
    | .error _ => reduction
    | .ok _ =>
        if reduction.rest.isEmpty then reduction
        else
          { reduction with
            result := .error (.malformed (.leftOver reduction.rest.length)) }

end Algebra

end Formula
