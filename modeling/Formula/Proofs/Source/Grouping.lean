import Formula.Proofs.Source.Phrase

/-!
# Grouping by precedence

The two stacks group lexemes into an expression exactly if the lexemes form it
as a phrase. What waits after part of a phrase is described by what it still
asks for, so that each lexeme is one case.
-/

namespace Formula

def Expression.measured (expression : Expression) : MeasuredExpression :=
  ⟨expression, expression.height⟩

namespace Grouping

variable {keywords : Keywords} {limit : Nat}

/-! ## Phrases are grouped -/

theorem pushOperand_measured {tree : Expression} (fits : tree.height ≤ limit)
    (offset : Nat) (operands : List MeasuredExpression) :
    pushOperand limit offset operands tree.measured =
      .ok (tree.measured :: operands) :=
  if_neg (Nat.not_lt.2 fits)

theorem applyPending_unary (operator : UnaryOperator) {tree : Expression}
    (fits : (Expression.unary operator tree).height ≤ limit) (offset : Nat)
    (operands : List MeasuredExpression) :
    applyPending limit (tree.measured :: operands) (.unary operator offset) =
      .ok ((Expression.unary operator tree).measured :: operands) :=
  pushOperand_measured fits offset operands

theorem applyPending_binary (operator : BinaryOperator)
    {left right : Expression}
    (fits : (Expression.binary operator left right).height ≤ limit)
    (offset : Nat) (operands : List MeasuredExpression) :
    applyPending limit (right.measured :: left.measured :: operands)
        (.binary operator offset) =
      .ok ((Expression.binary operator left right).measured :: operands) :=
  pushOperand_measured fits offset operands

/-- What waits after a phrase are operators of its level or tighter ones, and
they turn the operands into its tree. -/
structure Groups (keywords : Keywords) (limit level : Nat)
    (lexemes : List PlacedLexeme) (tree : Expression)
    (operands : List MeasuredExpression) (pending : List Pending)
    (waiting : List Pending) (after : List MeasuredExpression) : Prop where
  added : addAll keywords limit ⟨operands, pending⟩ lexemes =
    .ok ⟨after, waiting ++ pending⟩
  levels : ∀ top ∈ waiting,
    top.isOperator ∧ level ≤ top.level ∧ top.level ≤ 12
  unwinds : Unwinds limit waiting after (tree.measured :: operands)

theorem Groups.waiting_eq_nil {lexemes : List PlacedLexeme} {tree : Expression}
    {operands after : List MeasuredExpression} {pending waiting : List Pending}
    (groups : Groups keywords limit 13 lexemes tree operands pending waiting
      after) :
    waiting = [] ∧ after = tree.measured :: operands := by
  cases waiting with
  | nil =>
      exact ⟨rfl, groups.unwinds⟩
  | cons top rest =>
      have bounds := groups.levels top List.mem_cons_self
      omega

theorem addOperand_eq_ok {operand : Operand} (fits : 1 ≤ limit)
    (state : Grouping) (offset : Nat) :
    addOperand limit state offset operand =
      .ok ⟨(Expression.operand operand).measured :: state.operands,
        state.pending⟩ := by
  have pushed : pushOperand limit offset state.operands
      ⟨.operand operand, 1⟩ =
      .ok ((Expression.operand operand).measured :: state.operands) :=
    pushOperand_measured fits offset state.operands
  simp only [addOperand, pushed]

theorem groups_operand {operand : Operand} {placed : PlacedLexeme}
    (added : ∀ state, add keywords limit state placed =
      addOperand limit state placed.offset operand)
    (fits : 1 ≤ limit) (operands : List MeasuredExpression)
    (pending : List Pending) :
    Groups keywords limit 14 [placed] (.operand operand) operands pending []
      ((Expression.operand operand).measured :: operands) where
  added := by
    rw [addAll, added, addOperand_eq_ok fits]
    rfl
  levels := fun _ isTop => by cases isTop
  unwinds := rfl

theorem Groups.reduceWhile_eq {level : Nat} {lexemes : List PlacedLexeme}
    {tree : Expression} {operands after : List MeasuredExpression}
    {pending waiting : List Pending}
    (groups : Groups keywords limit level lexemes tree operands pending waiting
      after) {accepts : Pending → Bool}
    (accepted : ∀ top : Pending, top.isOperator → level ≤ top.level →
      accepts top)
    (stopped : ∀ top ∈ pending.head?, ¬ accepts top) :
    reduceWhile limit accepts after (waiting ++ pending) =
      .ok ⟨tree.measured :: operands, pending⟩ := by
  refine reduceWhile_of_unwinds groups.unwinds (fun top isTop => ?_) stopped
  obtain ⟨isOperator, above, _⟩ := groups.levels top isTop
  exact accepted top isOperator above

/-- A binary operator that follows a phrase takes its tree as left side. -/
theorem Groups.reduceWhile_bindsBefore {operator : BinaryOperator}
    {lexemes : List PlacedLexeme} {tree : Expression}
    {operands after : List MeasuredExpression} {pending waiting : List Pending}
    (groups : Groups keywords limit operator.precedence lexemes tree operands
      pending waiting after)
    (admits : Admits operator.precedence pending) :
    reduceWhile limit (Pending.bindsBefore operator) after
        (waiting ++ pending) =
      .ok ⟨tree.measured :: operands, pending⟩ := by
  refine groups.reduceWhile_eq
    (fun top _ above => (Pending.bindsBefore_iff operator top).2 above) ?_
  intro top isTop binds
  have below := admits top isTop operator (Nat.le_refl _)
  have above := (Pending.bindsBefore_iff _ _).1 binds
  omega

theorem Groups.loosen {level : Nat} {lexemes : List PlacedLexeme}
    {tree : Expression} {operands after : List MeasuredExpression}
    {pending waiting : List Pending}
    (groups : Groups keywords limit (level + 1) lexemes tree operands pending
      waiting after) :
    Groups keywords limit level lexemes tree operands pending waiting
      after where
  added := groups.added
  levels := by
    intro top isTop
    have bounds := groups.levels top isTop
    exact ⟨bounds.1, by omega, bounds.2.2⟩
  unwinds := groups.unwinds

theorem Groups.group {opening closing : Nat} {lexemes : List PlacedLexeme}
    {tree : Expression} {operands after : List MeasuredExpression}
    {pending waiting : List Pending}
    (groups : Groups keywords limit 2 lexemes tree operands
      (.group opening :: pending) waiting after) :
    Groups keywords limit 14
      (⟨opening, .opening⟩ :: (lexemes ++ [⟨closing, .closing⟩])) tree operands
      pending [] (tree.measured :: operands) where
  added := by
    have opened : addAll keywords limit ⟨operands, pending⟩
        (⟨opening, .opening⟩ :: lexemes) =
        .ok ⟨after, waiting ++ .group opening :: pending⟩ := groups.added
    have reduced := groups.reduceWhile_eq
      (fun top isOperator _ => isOperator) (by rintro _ ⟨rfl⟩ ⟨⟩)
    rw [← List.cons_append, addAll_append opened]
    simp only [addAll, add, closeGroup, reduced]
    rfl
  levels := fun _ isTop => by cases isTop
  unwinds := rfl

theorem Groups.member {offset nameOffset : Nat} {name : String}
    {lexemes : List PlacedLexeme} {tree : Expression}
    {operands after : List MeasuredExpression} {pending waiting : List Pending}
    (groups : Groups keywords limit 13 lexemes tree operands pending waiting
      after)
    (fits : (Expression.binary .member tree
      (.operand (.reference name))).height ≤ limit)
    (admits : Admits 13 pending) :
    Groups keywords limit 13
      (lexemes ++
        [⟨offset, .binary .member⟩, ⟨nameOffset, .memberName name⟩])
      (.binary .member tree (.operand (.reference name))) operands pending []
      ((Expression.binary .member tree
        (.operand (.reference name))).measured :: operands) where
  added := by
    obtain ⟨rfl, rfl⟩ := groups.waiting_eq_nil
    have nameFits : 1 ≤ limit := by
      simp only [Expression.height] at fits
      omega
    have reduced : reduceWhile limit (Pending.bindsBefore .member)
        (tree.measured :: operands) ([] ++ pending) = _ :=
      groups.reduceWhile_bindsBefore admits
    have applied :
        applyPending limit
          ((Expression.operand (.reference name)).measured ::
            tree.measured :: operands) (.binary .member offset) = _ :=
      applyPending_binary .member fits offset operands
    have selected : addMemberName limit
        ⟨tree.measured :: operands, .binary .member offset :: pending⟩
        nameOffset name =
        .ok ⟨(Expression.binary .member tree
          (.operand (.reference name))).measured :: operands, pending⟩ := by
      rw [addMemberName, addOperand_eq_ok nameFits]
      simp only [applied]
    rw [addAll_append groups.added]
    simp only [addAll, add, addBinary, reduced, selected]
    rfl
  levels := fun _ isTop => by cases isTop
  unwinds := rfl

theorem Groups.unary {offset : Nat} {operator : UnaryOperator}
    {lexemes : List PlacedLexeme} {tree : Expression}
    {operands after : List MeasuredExpression} {pending waiting : List Pending}
    (groups : Groups keywords limit 12 lexemes tree operands
      (.unary operator offset :: pending) waiting after)
    (fits : (Expression.unary operator tree).height ≤ limit) :
    Groups keywords limit 12 (⟨offset, .unary operator⟩ :: lexemes)
      (.unary operator tree) operands pending
      (waiting ++ [.unary operator offset]) after where
  added := by
    rw [List.append_assoc]
    exact groups.added
  levels := by
    intro top isTop
    rcases List.mem_append.1 isTop with isInner | isLast
    · exact groups.levels top isInner
    · obtain rfl := List.mem_singleton.1 isLast
      exact ⟨rfl, Nat.le_refl _, Nat.le_refl _⟩
  unwinds :=
    groups.unwinds.append
      ⟨_, applyPending_unary operator fits offset operands, rfl⟩

theorem Groups.binary {offset : Nat} {operator : BinaryOperator}
    (notMember : operator ≠ .member)
    {leftLexemes rightLexemes : List PlacedLexeme} {left right : Expression}
    {operands middle after : List MeasuredExpression}
    {pending leftWaiting waiting : List Pending}
    (leftGroups : Groups keywords limit operator.precedence leftLexemes left
      operands pending leftWaiting middle)
    (rightGroups : Groups keywords limit (operator.precedence + 1)
      rightLexemes right (left.measured :: operands)
      (.binary operator offset :: pending) waiting after)
    (fits : (Expression.binary operator left right).height ≤ limit)
    (admits : Admits operator.precedence pending) :
    Groups keywords limit operator.precedence
      (leftLexemes ++ ⟨offset, .binary operator⟩ :: rightLexemes)
      (.binary operator left right) operands pending
      (waiting ++ [.binary operator offset]) after where
  added := by
    have reduced := leftGroups.reduceWhile_bindsBefore admits
    rw [addAll_append leftGroups.added, addAll]
    simp only [add, addBinary, reduced]
    rw [List.append_assoc]
    exact rightGroups.added
  levels := by
    intro top isTop
    have below := BinaryOperator.precedence_le_of_ne_member notMember
    rcases List.mem_append.1 isTop with isInner | isLast
    · have bounds := rightGroups.levels top isInner
      exact ⟨bounds.1, by omega, bounds.2.2⟩
    · obtain rfl := List.mem_singleton.1 isLast
      exact ⟨rfl, Nat.le_refl _, by simp only [Pending.level]; omega⟩
  unwinds :=
    rightGroups.unwinds.append
      ⟨_, applyPending_binary operator fits offset operands, rfl⟩

/-- Every phrase is grouped where what waits admits its level. -/
theorem exists_groups {level : Nat} {lexemes : List PlacedLexeme}
    {tree : Expression} (phrase : Phrase keywords level lexemes tree) :
    ∀ (operands : List MeasuredExpression) (pending : List Pending),
      tree.height ≤ limit → Admits level pending →
        ∃ waiting after, Groups keywords limit level lexemes tree operands
          pending waiting after := by
  induction phrase with
  | constant offset value =>
      intro operands pending fits admits
      exact ⟨_, _, groups_operand (fun _ => rfl) fits operands pending⟩
  | word offset name =>
      intro operands pending fits admits
      exact ⟨_, _, groups_operand (fun _ => rfl) fits operands pending⟩
  | group opening closing _ inductionHypothesis =>
      intro operands pending fits admits
      have admitsInside : Admits 2 (.group opening :: pending) := by
        rintro _ ⟨rfl⟩ operator above
        simp only [Pending.level]
        omega
      obtain ⟨waiting, after, groups⟩ :=
        inductionHypothesis operands _ fits admitsInside
      exact ⟨_, _, groups.group⟩
  | member offset nameOffset name _ inductionHypothesis =>
      intro operands pending fits admits
      have ownerFits := fits
      simp only [Expression.height] at ownerFits
      obtain ⟨waiting, after, groups⟩ :=
        inductionHypothesis operands pending (by omega) admits
      exact ⟨_, _, groups.member fits admits⟩
  | unary offset operator _ inductionHypothesis =>
      intro operands pending fits admits
      have innerFits := fits
      simp only [Expression.height] at innerFits
      have admitsInside : Admits 12 (.unary operator offset :: pending) := by
        rintro _ ⟨rfl⟩ next above
        have bounds := next.precedence_bounds
        simp only [Pending.level]
        omega
      obtain ⟨waiting, after, groups⟩ :=
        inductionHypothesis operands _ (by omega) admitsInside
      exact ⟨_, _, groups.unary fits⟩
  | @binary offset operator notMember leftLexemes rightLexemes left right _ _
      leftHypothesis rightHypothesis =>
      intro operands pending fits admits
      have sidesFit := fits
      simp only [Expression.height] at sidesFit
      obtain ⟨leftWaiting, middle, leftGroups⟩ :=
        leftHypothesis operands pending (by omega) admits
      have admitsRight : Admits (operator.precedence + 1)
          (.binary operator offset :: pending) := by
        rintro _ ⟨rfl⟩ next above
        simp only [Pending.level]
        omega
      obtain ⟨waiting, after, rightGroups⟩ := rightHypothesis
        (left.measured :: operands) _ (by omega) admitsRight
      exact ⟨_, _, leftGroups.binary notMember rightGroups fits admits⟩
  | loosen _ inductionHypothesis =>
      intro operands pending fits admits
      obtain ⟨waiting, after, groups⟩ := inductionHypothesis operands pending
        fits (admits.tighten (Nat.le_succ _))
      exact ⟨_, _, groups.loosen⟩

/-! ## Grouped lexemes are phrases -/

/-- What was read before an operand that is still missing: parentheses and
unary operators, and binary operators with their left sides. A left side stands
where nothing that waits takes it first. -/
inductive Waiting (keywords : Keywords) (limit : Nat) :
    List PlacedLexeme → List MeasuredExpression → List Pending → Prop
  | nil : Waiting keywords limit [] [] []
  | group (offset : Nat) {read : List PlacedLexeme}
      {operands : List MeasuredExpression} {pending : List Pending}
      (before : Waiting keywords limit read operands pending) :
      Waiting keywords limit (read ++ [⟨offset, .opening⟩]) operands
        (.group offset :: pending)
  | unary (offset : Nat) (operator : UnaryOperator)
      {read : List PlacedLexeme} {operands : List MeasuredExpression}
      {pending : List Pending}
      (before : Waiting keywords limit read operands pending) :
      Waiting keywords limit (read ++ [⟨offset, .unary operator⟩]) operands
        (.unary operator offset :: pending)
  | binary (offset : Nat) {operator : BinaryOperator}
      (notMember : operator ≠ .member) {read lexemes : List PlacedLexeme}
      {operands : List MeasuredExpression} {pending : List Pending}
      {tree : Expression}
      (before : Waiting keywords limit read operands pending)
      (looser : ∀ top ∈ pending.head?, top.level < operator.precedence)
      (phrase : Phrase keywords operator.precedence lexemes tree) :
      Waiting keywords limit
        (read ++ (lexemes ++ [⟨offset, .binary operator⟩]))
        (tree.measured :: operands) (.binary operator offset :: pending)

/-- What was read up to the end of an operand: a phrase of a level after what
waits. -/
def Standing (keywords : Keywords) (limit level : Nat)
    (read : List PlacedLexeme) (operands : List MeasuredExpression)
    (pending : List Pending) : Prop :=
  ∃ before lexemes rest tree, read = before ++ lexemes ∧
    operands = Expression.measured tree :: rest ∧
      Waiting keywords limit before rest pending ∧
        Phrase keywords level lexemes tree ∧ tree.height ≤ limit

theorem Standing.loosen {level looser : Nat} {read : List PlacedLexeme}
    {operands : List MeasuredExpression} {pending : List Pending}
    (stands : Standing keywords limit level read operands pending)
    (isLooser : looser ≤ level) :
    Standing keywords limit looser read operands pending := by
  obtain ⟨before, lexemes, rest, tree, readEq, operandsEq, waits, phrase,
    fits⟩ := stands
  exact ⟨before, lexemes, rest, tree, readEq, operandsEq, waits,
    phrase.loosen_of_le isLooser, fits⟩

end Grouping

/-- The level that a waiting operator or parenthesis asks of what follows. -/
def Pending.asks : Pending → Nat
  | .unary _ _ => 12
  | .binary operator _ => operator.precedence + 1
  | .group _ => 2

theorem Pending.two_le_level_of_isOperator (pending : Pending)
    (isOperator : pending.isOperator) : 2 ≤ pending.level := by
  cases pending with
  | unary =>
      simp [level]
  | binary operator =>
      exact operator.precedence_bounds.1
  | group =>
      cases isOperator

namespace Grouping

theorem Waiting.asks_le {read : List PlacedLexeme}
    {operands : List MeasuredExpression} {pending : List Pending}
    (waits : Waiting keywords limit read operands pending) :
    ∀ top ∈ pending.head?, top.asks ≤ 12 := by
  cases waits with
  | nil =>
      intro top isTop
      cases isTop
  | group | unary =>
      rintro _ ⟨rfl⟩
      simp [Pending.asks]
  | binary offset notMember before looser phrase =>
      rintro _ ⟨rfl⟩
      have below := BinaryOperator.precedence_le_of_ne_member notMember
      simp only [Pending.asks]
      omega

theorem Standing.asks_le {level : Nat} {read : List PlacedLexeme}
    {operands : List MeasuredExpression} {pending : List Pending}
    (stands : Standing keywords limit level read operands pending) :
    ∀ top ∈ pending.head?, top.asks ≤ 12 := by
  obtain ⟨_, _, _, _, _, _, waits, _⟩ := stands
  exact waits.asks_le

theorem pushOperand_eq_ok {offset : Nat} {operands next :
    List MeasuredExpression} {operand : MeasuredExpression}
    (pushed : pushOperand limit offset operands operand = .ok next) :
    operand.height ≤ limit ∧ next = operand :: operands := by
  unfold pushOperand at pushed
  split at pushed
  · cases pushed
  · cases pushed
    exact ⟨by omega, rfl⟩

/-- Applying an operator joins it with the phrase that follows it, and what
waits below asks for no more than the level of the joined phrase. -/
theorem standing_of_applyPending {level : Nat} {read : List PlacedLexeme}
    {operands next : List MeasuredExpression} {top : Pending}
    {pending : List Pending}
    (stands : Standing keywords limit level read operands (top :: pending))
    (asked : top.asks ≤ level)
    (applied : applyPending limit operands top = .ok next) :
    Standing keywords limit top.level read next pending ∧
      ∀ below ∈ pending.head?, below.asks ≤ top.level := by
  obtain ⟨before, lexemes, rest, tree, rfl, rfl, waits, phrase, fits⟩ :=
    stands
  cases waits with
  | group offset waits =>
      cases applied
  | unary offset operator waits =>
      obtain ⟨joinedFits, rfl⟩ := pushOperand_eq_ok applied
      refine ⟨⟨_, _, _, .unary operator tree, List.append_assoc _ _ _, rfl,
        waits, .unary offset operator (phrase.loosen_of_le asked),
        joinedFits⟩, waits.asks_le⟩
  | binary offset notMember waits looser leftPhrase =>
      rename_i operator read leftLexemes rest left
      obtain ⟨joinedFits, rfl⟩ := pushOperand_eq_ok applied
      refine ⟨⟨_, _, _, .binary operator left tree, ?_, rfl, waits,
        .binary offset notMember leftPhrase (phrase.loosen_of_le asked),
        joinedFits⟩, fun below isBelow => ?_⟩
      · simp only [List.append_assoc, List.cons_append, List.nil_append]
      · have levels := looser below isBelow
        have bounds := operator.precedence_bounds
        have highest := BinaryOperator.precedence_le_of_ne_member notMember
        cases below with
        | unary | group | binary =>
            simp only [Pending.asks, Pending.level] at *
            omega

/-- Reducing keeps a phrase in front, down to something that is not
accepted. -/
theorem standing_of_reduceWhile {accepts : Pending → Bool} {floor : Nat}
    (accepted : ∀ top, accepts top → floor ≤ top.level)
    {read : List PlacedLexeme} {next : List MeasuredExpression}
    {left : List Pending} (pending : List Pending) :
    ∀ {level : Nat} {operands : List MeasuredExpression}, floor ≤ level →
      Standing keywords limit level read operands pending →
        (∀ top ∈ pending.head?, top.asks ≤ level) →
          reduceWhile limit accepts operands pending = .ok ⟨next, left⟩ →
            (∃ level, floor ≤ level ∧
              Standing keywords limit level read next left) ∧
              ∀ top ∈ left.head?, ¬ accepts top := by
  induction pending with
  | nil =>
      intro level operands above stands asked reduced
      cases reduced
      exact ⟨⟨level, above, stands⟩, fun top isTop => by cases isTop⟩
  | cons top rest inductionHypothesis =>
      intro level operands above stands asked reduced
      rw [reduceWhile] at reduced
      by_cases accepts' : accepts top
      · rw [if_pos accepts'] at reduced
        cases applied : applyPending limit operands top with
        | error error =>
            rw [applied] at reduced
            cases reduced
        | ok operands =>
            rw [applied] at reduced
            obtain ⟨joined, askedBelow⟩ :=
              standing_of_applyPending stands (asked top rfl) applied
            exact inductionHypothesis (accepted top accepts') joined
              askedBelow reduced
      · rw [if_neg accepts'] at reduced
        cases reduced
        refine ⟨⟨level, above, stands⟩, ?_⟩
        rintro _ ⟨rfl⟩
        exact accepts'

/-- The same at the end of an operand, which suits whatever waits. -/
theorem Standing.reduceWhile {accepts : Pending → Bool} {floor : Nat}
    (accepted : ∀ top, accepts top → floor ≤ top.level) (low : floor ≤ 13)
    {read : List PlacedLexeme} {operands next : List MeasuredExpression}
    {pending left : List Pending}
    (stands : Standing keywords limit 13 read operands pending)
    (reduced : reduceWhile limit accepts operands pending =
      .ok ⟨next, left⟩) :
    (∃ level, floor ≤ level ∧
        Standing keywords limit level read next left) ∧
      ∀ top ∈ left.head?, ¬ accepts top := by
  have asked : ∀ top ∈ pending.head?, top.asks ≤ 13 := by
    intro top isTop
    exact Nat.le_succ_of_le (stands.asks_le top isTop)
  exact standing_of_reduceWhile accepted pending low stands asked reduced

end Grouping

/-! ## Expectations -/

theorem Lexeme.next_binary_of_ne_member {operator : BinaryOperator}
    (notMember : operator ≠ .member) :
    (Lexeme.binary operator).next = .operand := by
  cases operator with
  | member =>
      exact absurd rfl notMember
  | logical | bitwise | equality | relational | shift | arithmetic =>
      rfl

/-- Whether a lexeme may stand where something is expected. -/
def Expectation.Allows : Expectation → Lexeme → Prop
  | .operand, .constant _ | .operand, .word _ => True
  | .operand, .unary _ | .operand, .opening => True
  | .operator, .binary _ | .operator, .closing => True
  | .memberName, .memberName _ => True
  | _, _ => False

/-- Lexemes that are allowed one after the other, and what may stand after
them. -/
def Expectation.Leads :
    Expectation → List PlacedLexeme → Expectation → Prop
  | expectation, [], last => expectation = last
  | expectation, placed :: rest, last =>
      expectation.Allows placed.lexeme ∧ placed.lexeme.next.Leads rest last

namespace Grouping

/-- What the two stacks hold where something is expected. -/
def Holds (keywords : Keywords) (limit : Nat) (read : List PlacedLexeme)
    (state : Grouping) : Expectation → Prop
  | .operand => Waiting keywords limit read state.operands state.pending
  | .operator =>
      Standing keywords limit 13 read state.operands state.pending
  | .memberName =>
      ∃ before offset pending, read = before ++ [⟨offset, .binary .member⟩] ∧
        state.pending = .binary .member offset :: pending ∧
          Standing keywords limit 13 before state.operands pending

theorem standing_of_addOperand {read : List PlacedLexeme}
    {state next : Grouping} {placed : PlacedLexeme} {operand : Operand}
    (waits : Waiting keywords limit read state.operands state.pending)
    (phrase : Phrase keywords 14 [placed] (.operand operand))
    (added : addOperand limit state placed.offset operand = .ok next) :
    Standing keywords limit 13 (read ++ [placed]) next.operands
      next.pending := by
  unfold addOperand at added
  split at added
  · rename_i operands pushed
    cases added
    obtain ⟨fits, rfl⟩ := pushOperand_eq_ok pushed
    exact ⟨read, _, _, .operand operand, rfl, rfl, waits,
      phrase.loosen_of_le (by omega), fits⟩
  · cases added

theorem standing_of_closeGroup {read : List PlacedLexeme}
    {state next : Grouping} {placed : PlacedLexeme}
    (stands : Standing keywords limit 13 read state.operands state.pending)
    (isClosing : placed.lexeme = .closing)
    (closed : closeGroup limit state placed.offset = .ok next) :
    Standing keywords limit 13 (read ++ [placed]) next.operands
      next.pending := by
  obtain ⟨offset, lexeme⟩ := placed
  obtain rfl : lexeme = .closing := isClosing
  unfold closeGroup at closed
  split at closed
  · cases closed
  · cases closed
  · rename_i operands top pending reduced
    cases closed
    obtain ⟨⟨level, above, inside⟩, stopped⟩ := stands.reduceWhile
      Pending.two_le_level_of_isOperator (by omega) reduced
    obtain ⟨before, lexemes, rest, tree, rfl, operandsEq, waits, phrase,
      fits⟩ := inside
    cases waits with
    | unary | binary =>
        exact absurd rfl (stopped _ rfl)
    | group opening waits =>
        refine ⟨_, _, _, tree, ?_, operandsEq, waits,
          (Phrase.group opening offset
            (phrase.loosen_of_le above)).loosen_of_le (by omega), fits⟩
        simp only [List.append_assoc, List.cons_append, List.nil_append]

theorem holds_of_addBinary {read : List PlacedLexeme} {state next : Grouping}
    {placed : PlacedLexeme} {operator : BinaryOperator}
    (stands : Standing keywords limit 13 read state.operands state.pending)
    (isBinary : placed.lexeme = .binary operator)
    (added : addBinary limit state placed.offset operator = .ok next) :
    Holds keywords limit (read ++ [placed]) next placed.lexeme.next := by
  obtain ⟨offset, lexeme⟩ := placed
  obtain rfl : lexeme = .binary operator := isBinary
  unfold addBinary at added
  split at added
  · rename_i operands pending reduced
    cases added
    have bounds := operator.precedence_bounds
    obtain ⟨⟨level, above, inside⟩, stopped⟩ := stands.reduceWhile
      (fun top => (Pending.bindsBefore_iff operator top).1) (by omega) reduced
    by_cases isMember : operator = .member
    · subst isMember
      exact ⟨read, offset, pending, rfl, rfl, inside.loosen above⟩
    · obtain ⟨before, lexemes, rest, tree, rfl, rfl, waits, phrase, fits⟩ :=
        inside
      have looser : ∀ top ∈ pending.head?,
          top.level < operator.precedence := by
        intro top isTop
        have refused := stopped top isTop
        rw [Pending.bindsBefore_iff] at refused
        omega
      have joined := Waiting.binary offset isMember waits looser
        (phrase.loosen_of_le above)
      rw [Lexeme.next_binary_of_ne_member isMember, List.append_assoc]
      exact joined
  · cases added

theorem standing_of_addMemberName {read : List PlacedLexeme}
    {state next : Grouping} {placed : PlacedLexeme} {name : String}
    (holds : Holds keywords limit read state .memberName)
    (isName : placed.lexeme = .memberName name)
    (added : addMemberName limit state placed.offset name = .ok next) :
    Standing keywords limit 13 (read ++ [placed]) next.operands
      next.pending := by
  obtain ⟨nameOffset, lexeme⟩ := placed
  obtain rfl : lexeme = .memberName name := isName
  obtain ⟨operands, _⟩ := state
  obtain ⟨before, offset, pending, rfl, rfl, stands⟩ := holds
  obtain ⟨waiting, lexemes, rest, tree, rfl, rfl, waits, phrase, fits⟩ :=
    stands
  have nameFits : 1 ≤ limit := Nat.le_trans tree.height_pos fits
  rw [addMemberName, addOperand_eq_ok nameFits] at added
  cases applied : applyPending limit
      ((Expression.operand (.reference name)).measured ::
        tree.measured :: rest) (.binary .member offset) with
  | error error =>
      simp only [applied] at added
      cases added
  | ok after =>
      simp only [applied] at added
      cases added
      obtain ⟨joinedFits, rfl⟩ := pushOperand_eq_ok applied
      refine ⟨waiting, _, rest, .binary .member tree
        (.operand (.reference name)), ?_, rfl, waits,
        .member offset nameOffset name phrase, joinedFits⟩
      simp only [List.append_assoc, List.cons_append, List.nil_append]

/-- One more lexeme keeps what the two stacks hold. -/
theorem Holds.add {expectation : Expectation} {read : List PlacedLexeme}
    {state next : Grouping} {placed : PlacedLexeme}
    (holds : Holds keywords limit read state expectation)
    (allowed : expectation.Allows placed.lexeme)
    (added : add keywords limit state placed = .ok next) :
    Holds keywords limit (read ++ [placed]) next placed.lexeme.next := by
  obtain ⟨offset, lexeme⟩ := placed
  cases expectation with
  | operand =>
      cases lexeme with
      | constant value =>
          exact standing_of_addOperand holds (.constant offset value) added
      | word name =>
          exact standing_of_addOperand holds (.word offset name) added
      | unary operator =>
          cases added
          exact .unary offset operator holds
      | opening =>
          cases added
          exact .group offset holds
      | memberName | binary | closing =>
          cases allowed
  | operator =>
      cases lexeme with
      | binary operator =>
          exact holds_of_addBinary holds rfl added
      | closing =>
          exact standing_of_closeGroup holds rfl added
      | constant | word | memberName | unary | opening =>
          cases allowed
  | memberName =>
      cases lexeme with
      | memberName name =>
          exact standing_of_addMemberName holds rfl added
      | constant | word | unary | binary | opening | closing =>
          cases allowed

theorem Holds.addAll {last : Expectation} {next : Grouping}
    {lexemes : List PlacedLexeme} :
    ∀ {expectation : Expectation} {read : List PlacedLexeme}
      {state : Grouping}, Holds keywords limit read state expectation →
        expectation.Leads lexemes last →
          addAll keywords limit state lexemes = .ok next →
            Holds keywords limit (read ++ lexemes) next last := by
  induction lexemes with
  | nil =>
      intro expectation read state holds leads added
      obtain rfl := leads
      cases added
      rw [List.append_nil]
      exact holds
  | cons placed rest inductionHypothesis =>
      intro expectation read state holds leads added
      obtain ⟨allowed, leadsOn⟩ := leads
      rw [Grouping.addAll] at added
      cases step : Grouping.add keywords limit state placed with
      | error error =>
          rw [step] at added
          cases added
      | ok middle =>
          rw [step] at added
          have reached := inductionHypothesis (holds.add allowed step) leadsOn
            added
          rw [List.append_assoc] at reached
          exact reached

theorem Holds.phrase_of_finish {read : List PlacedLexeme} {state : Grouping}
    {tree : Expression} (holds : Holds keywords limit read state .operator)
    (finished : state.finish limit = .ok tree) :
    Phrase keywords 2 read tree ∧ tree.height ≤ limit := by
  have stands : Standing keywords limit 13 read state.operands state.pending :=
    holds
  unfold finish at finished
  cases reduced : reduceWhile limit Pending.isOperator state.operands
      state.pending with
  | error error =>
      simp only [reduced] at finished
      cases finished
  | ok final =>
      obtain ⟨operands, pending⟩ := final
      obtain ⟨⟨level, above, whole⟩, stopped⟩ := stands.reduceWhile
        Pending.two_le_level_of_isOperator (by omega) reduced
      obtain ⟨before, lexemes, rest, root, rfl, rfl, waits, phrase, fits⟩ :=
        whole
      cases waits with
      | nil =>
          simp only [reduced] at finished
          cases finished
          exact ⟨phrase.loosen_of_le above, fits⟩
      | group =>
          simp only [reduced] at finished
          cases finished
      | unary | binary =>
          exact absurd rfl (stopped _ rfl)

end Grouping

/-- Lexemes that lead to the end of an operand form an expression within the
limit exactly if they are a phrase of it. -/
theorem Expression.ofLexemes_eq_ok_iff {keywords : Keywords} {limit : Nat}
    {lexemes : List PlacedLexeme} {tree : Expression}
    (leads : Expectation.operand.Leads lexemes .operator) :
    Expression.ofLexemes keywords limit ⟨lexemes, none⟩ = .ok tree ↔
      Phrase keywords 2 lexemes tree ∧ tree.height ≤ limit := by
  constructor
  · intro formed
    unfold Expression.ofLexemes at formed
    cases added : Grouping.initial.addAll keywords limit lexemes with
    | error error =>
        simp only [added] at formed
        cases formed
    | ok state =>
        simp only [added] at formed
        have started : Grouping.Holds keywords limit [] .initial .operand :=
          .nil
        exact (started.addAll leads added).phrase_of_finish formed
  · rintro ⟨phrase, fits⟩
    obtain ⟨waiting, after, groups⟩ := Grouping.exists_groups phrase [] []
      fits (fun top isTop => by cases isTop)
    have reduced := groups.reduceWhile_eq
      (fun top isOperator _ => isOperator) (fun top isTop => by cases isTop)
    have added : Grouping.initial.addAll keywords limit lexemes =
      .ok ⟨after, waiting ++ []⟩ := groups.added
    unfold Expression.ofLexemes
    simp only [added, Grouping.finish, reduced]
    rfl

end Formula
