import Formula.Proofs.Reduction.Errors
import Formula.Proofs.Source.Grammar
import Formula.Proofs.Source.Places

/-!
# Faults of a source

A source is no expression for a fault of its written form only, which shows at
a place of the source. The two stacks never lack an operand, because the
lexemes before an error still stand where they are allowed, and what waits on
them is where its lexeme is.
-/

namespace Formula

/-- An error that has a place in the source. -/
def Error.IsWritten (error : Error) : Prop :=
  ∃ offset fault, error = .written offset fault

theorem Cursor.Locates.isWritten {cursor : Cursor} {error : Error}
    (located : cursor.Locates error) : error.IsWritten := by
  obtain ⟨place, fault, _, rfl⟩ := located
  exact ⟨place.offset, fault, rfl⟩

/-! ## Faults of grouping -/

/-- An error shows where one of some lexemes begins. -/
def Error.ShowsAt (error : Error) (lexemes : List PlacedLexeme) : Prop :=
  ∃ placed ∈ lexemes, ∃ fault, error = .written placed.offset fault

theorem Error.ShowsAt.of_subset {error : Error}
    {lexemes more : List PlacedLexeme} (shows : error.ShowsAt lexemes)
    (isSubset : lexemes ⊆ more) : error.ShowsAt more := by
  obtain ⟨placed, isLexeme, shown⟩ := shows
  exact ⟨placed, isSubset isLexeme, shown⟩

/-- An error that shows where a lexeme of a source begins shows at a place of
this source. -/
theorem Error.ShowsAt.locates {error : Error} {lexemes : List PlacedLexeme}
    {expectation last : Expectation} {start stop : Cursor}
    (shows : error.ShowsAt lexemes)
    (lexes : Lexes expectation start lexemes last stop) :
    start.Locates error := by
  obtain ⟨placed, isLexeme, fault, rfl⟩ := shows
  obtain ⟨place, reached, isPlace⟩ := lexes.exists_reaches placed isLexeme
  exact ⟨place, fault, reached, by rw [Cursor.error, isPlace]⟩

/-- Where the lexeme of a waiting operator or parenthesis begins. -/
def Pending.offset : Pending → Nat
  | .unary _ offset | .binary _ offset | .group offset => offset

namespace Grouping

variable {keywords : Keywords} {limit : Nat} {error : Error}

/-- What waits is where one of the lexemes read is. -/
theorem Waiting.exists_placed {read : List PlacedLexeme}
    {operands : List MeasuredExpression} {top : Pending}
    {pending : List Pending}
    (waits : Waiting keywords limit read operands (top :: pending)) :
    ∃ placed ∈ read, placed.offset = top.offset := by
  cases waits with
  | group offset | unary offset =>
      exact ⟨_, List.mem_append_right _ List.mem_cons_self, rfl⟩
  | binary offset =>
      exact ⟨_, List.mem_append_right _
        (List.mem_append_right _ List.mem_cons_self), rfl⟩

theorem Standing.showsAt {level : Nat} {read : List PlacedLexeme}
    {operands : List MeasuredExpression} {top : Pending}
    {pending : List Pending}
    (stands : Standing keywords limit level read operands (top :: pending))
    (fault : SyntaxFault) :
    Error.ShowsAt (.written top.offset fault) read := by
  obtain ⟨before, lexemes, _, _, rfl, _, waits, _⟩ := stands
  obtain ⟨placed, isRead, isTop⟩ := waits.exists_placed
  exact ⟨placed, List.mem_append_left lexemes isRead, fault, by rw [isTop]⟩

theorem exists_fault_of_pushOperand {offset : Nat}
    {operands : List MeasuredExpression} {operand : MeasuredExpression}
    (failed : pushOperand limit offset operands operand = .error error) :
    ∃ fault, error = .written offset fault := by
  unfold pushOperand at failed
  split at failed
  · cases failed
    exact ⟨_, rfl⟩
  · cases failed

theorem exists_fault_of_addOperand {state : Grouping} {offset : Nat}
    {operand : Operand}
    (failed : addOperand limit state offset operand = .error error) :
    ∃ fault, error = .written offset fault := by
  unfold addOperand at failed
  split at failed
  · cases failed
  · rename_i pushFailed
    cases failed
    exact exists_fault_of_pushOperand pushFailed

/-- What waits after an operand finds the operands that it takes. -/
theorem showsAt_of_applyPending {level : Nat} {read : List PlacedLexeme}
    {operands : List MeasuredExpression} {top : Pending}
    {pending : List Pending}
    (stands : Standing keywords limit level read operands (top :: pending))
    (failed : applyPending limit operands top = .error error) :
    error.ShowsAt read := by
  have shows := stands.showsAt
  obtain ⟨before, lexemes, rest, tree, rfl, rfl, waits, _⟩ := stands
  cases waits with
  | group offset waits =>
      cases failed
      exact shows _
  | unary offset operator waits =>
      obtain ⟨fault, rfl⟩ := exists_fault_of_pushOperand failed
      exact shows fault
  | binary offset notMember waits looser leftPhrase =>
      obtain ⟨fault, rfl⟩ := exists_fault_of_pushOperand failed
      exact shows fault

theorem showsAt_of_reduceWhile {accepts : Pending → Bool}
    {read : List PlacedLexeme} (pending : List Pending) :
    ∀ {level : Nat} {operands : List MeasuredExpression},
      Standing keywords limit level read operands pending →
        (∀ top ∈ pending.head?, top.asks ≤ level) →
          reduceWhile limit accepts operands pending = .error error →
            error.ShowsAt read := by
  induction pending with
  | nil =>
      intro level operands stands asked failed
      cases failed
  | cons top rest inductionHypothesis =>
      intro level operands stands asked failed
      rw [reduceWhile] at failed
      split at failed
      · cases applied : applyPending limit operands top with
        | error reported =>
            rw [applied] at failed
            cases failed
            exact showsAt_of_applyPending stands applied
        | ok next =>
            rw [applied] at failed
            obtain ⟨joined, askedBelow⟩ :=
              standing_of_applyPending stands (asked top rfl) applied
            exact inductionHypothesis joined askedBelow failed
      · cases failed

/-- The same for what stands where an operator is expected. -/
theorem showsAt_of_reduceWhile_operator {accepts : Pending → Bool}
    {read : List PlacedLexeme} {state : Grouping}
    (holds : Holds keywords limit read state .operator)
    (failed : reduceWhile limit accepts state.operands state.pending =
      .error error) :
    error.ShowsAt read := by
  have stands : Standing keywords limit 13 read state.operands state.pending :=
    holds
  exact showsAt_of_reduceWhile state.pending stands
    (fun top isTop => Nat.le_trans (stands.asks_le top isTop) (by omega))
    failed

theorem showsAt_of_addBinary {read : List PlacedLexeme} {state : Grouping}
    {offset : Nat} {operator : BinaryOperator}
    (holds : Holds keywords limit read state .operator)
    (failed : addBinary limit state offset operator = .error error) :
    error.ShowsAt read := by
  unfold addBinary at failed
  split at failed
  · cases failed
  · rename_i reduceFailed
    cases failed
    exact showsAt_of_reduceWhile_operator holds reduceFailed

theorem showsAt_or_fault_of_closeGroup {read : List PlacedLexeme}
    {state : Grouping} {offset : Nat}
    (holds : Holds keywords limit read state .operator)
    (failed : closeGroup limit state offset = .error error) :
    error.ShowsAt read ∨ ∃ fault, error = .written offset fault := by
  unfold closeGroup at failed
  split at failed
  · rename_i reduceFailed
    cases failed
    exact .inl (showsAt_of_reduceWhile_operator holds reduceFailed)
  · cases failed
    exact .inr ⟨_, rfl⟩
  · cases failed

theorem showsAt_of_addMemberName {read : List PlacedLexeme}
    {state : Grouping} {offset : Nat} {name : String}
    (holds : Holds keywords limit read state .memberName)
    (failed : addMemberName limit state offset name = .error error) :
    error.ShowsAt read := by
  obtain ⟨operands, _⟩ := state
  obtain ⟨before, pointOffset, pending, rfl, rfl, stands⟩ := holds
  obtain ⟨_, _, rest, tree, _, rfl, _, _, fits⟩ := stands
  have nameFits : 1 ≤ limit := Nat.le_trans tree.height_pos fits
  rw [addMemberName, addOperand_eq_ok nameFits] at failed
  dsimp only at failed
  split at failed
  · cases failed
  · rename_i applyFailed
    cases failed
    obtain ⟨fault, rfl⟩ := exists_fault_of_pushOperand applyFailed
    exact ⟨_, List.mem_append_right before List.mem_cons_self, fault, rfl⟩

/-- A lexeme that is allowed fails where it is, or where one before it is. -/
theorem Holds.showsAt_of_add {expectation : Expectation}
    {read : List PlacedLexeme} {state : Grouping} {placed : PlacedLexeme}
    (holds : Holds keywords limit read state expectation)
    (allowed : expectation.Allows placed.lexeme)
    (failed : Grouping.add keywords limit state placed = .error error) :
    error.ShowsAt (read ++ [placed]) := by
  have earlier (shows : error.ShowsAt read) :
      error.ShowsAt (read ++ [placed]) :=
    shows.of_subset (List.subset_append_left read [placed])
  have here (shown : ∃ fault, error = .written placed.offset fault) :
      error.ShowsAt (read ++ [placed]) :=
    ⟨placed, List.mem_append_right read List.mem_cons_self, shown⟩
  obtain ⟨offset, lexeme⟩ := placed
  cases expectation with
  | operand =>
      cases lexeme with
      | constant | word =>
          exact here (exists_fault_of_addOperand failed)
      | unary | opening =>
          cases failed
      | memberName | binary | closing =>
          cases allowed
  | operator =>
      cases lexeme with
      | binary operator =>
          exact earlier (showsAt_of_addBinary holds failed)
      | closing =>
          exact (showsAt_or_fault_of_closeGroup holds failed).elim earlier here
      | constant | word | memberName | unary | opening =>
          cases allowed
  | memberName =>
      cases lexeme with
      | memberName name =>
          exact earlier (showsAt_of_addMemberName holds failed)
      | constant | word | unary | binary | opening | closing =>
          cases allowed

theorem Holds.showsAt_of_addAll {last : Expectation}
    {lexemes : List PlacedLexeme} :
    ∀ {expectation : Expectation} {read : List PlacedLexeme}
      {state : Grouping}, Holds keywords limit read state expectation →
        expectation.Leads lexemes last →
          Grouping.addAll keywords limit state lexemes = .error error →
            error.ShowsAt (read ++ lexemes) := by
  induction lexemes with
  | nil =>
      intro expectation read state holds leads failed
      cases failed
  | cons placed rest inductionHypothesis =>
      intro expectation read state holds leads failed
      obtain ⟨allowed, leadsOn⟩ := leads
      rw [Grouping.addAll] at failed
      have regrouped : read ++ placed :: rest = read ++ [placed] ++ rest :=
        List.append_cons read placed rest
      rw [regrouped]
      cases step : Grouping.add keywords limit state placed with
      | error reported =>
          rw [step] at failed
          cases failed
          exact (holds.showsAt_of_add allowed step).of_subset
            (List.subset_append_left _ rest)
      | ok middle =>
          rw [step] at failed
          exact inductionHypothesis (holds.add allowed step) leadsOn failed

/-- At the end of an operand, an operand is there. -/
theorem Holds.showsAt_of_finish {read : List PlacedLexeme}
    {state : Grouping} (holds : Holds keywords limit read state .operator)
    (failed : state.finish limit = .error error) : error.ShowsAt read := by
  have stands : Standing keywords limit 13 read state.operands state.pending :=
    holds
  unfold finish at failed
  split at failed
  · rename_i reduceFailed
    cases failed
    exact showsAt_of_reduceWhile_operator holds reduceFailed
  · rename_i reduced
    cases failed
    obtain ⟨⟨_, _, inside⟩, _⟩ := stands.reduceWhile
      Pending.two_le_level_of_isOperator (by omega) reduced
    exact inside.showsAt _
  · cases failed
  · rename_i reduced
    obtain ⟨⟨_, _, whole⟩, _⟩ := stands.reduceWhile
      Pending.two_le_level_of_isOperator (by omega) reduced
    obtain ⟨_, _, _, _, _, noOperands, _⟩ := whole
    cases noOperands

end Grouping

/-! ## Faults of reading -/

/-- A source from which no expression is read has a fault at some place. -/
theorem Expression.locates_of_ofSource {keywords : Keywords} {limit : Nat}
    {source : String} {error : Error}
    (failed : Expression.ofSource keywords limit source = .error error) :
    (Cursor.start source).Locates error := by
  obtain ⟨last, stop, lexes, ended⟩ := LexemeList.exists_lexes_ofSource source
  have started : Grouping.Holds keywords limit [] .initial .operand := .nil
  rw [Expression.ofSource, Expression.ofLexemes] at failed
  cases added : Grouping.initial.addAll keywords limit
      (LexemeList.ofSource source).lexemes with
  | error reported =>
      simp only [added] at failed
      cases failed
      exact (started.showsAt_of_addAll lexes.leads added).locates lexes
  | ok state =>
      simp only [added] at failed
      split at failed
      · rename_i reported lexingFailed
        cases failed
        exact Cursor.locates_of_lexemesFrom [] .operand _ lexingFailed
      · rename_i complete
        obtain ⟨rfl, _⟩ := ended complete
        exact ((started.addAll lexes.leads added).showsAt_of_finish
          failed).locates lexes

namespace Language

variable {language : Language} {source : String} {error : Error}

theorem locates_of_parse (failed : language.parse source = .error error) :
    (Cursor.start source).Locates error := by
  rw [parse_eq_map] at failed
  cases formed : Expression.ofSource language.keywords language.limit
      source with
  | error reported =>
      rw [formed] at failed
      cases failed
      exact Expression.locates_of_ofSource formed
  | ok tree =>
      rw [formed] at failed
      cases failed

theorem isWritten_of_parse (failed : language.parse source = .error error) :
    error.IsWritten :=
  (locates_of_parse failed).isWritten

end Language

/-! ## Names of members -/

theorem Phrase.namesMembers {keywords : Keywords} {level : Nat}
    {lexemes : List PlacedLexeme} {tree : Expression}
    (phrase : Phrase keywords level lexemes tree) : tree.NamesMembers := by
  induction phrase with
  | constant | word =>
      trivial
  | group _ _ _ inductionHypothesis =>
      exact inductionHypothesis
  | member _ _ name _ inductionHypothesis =>
      exact ⟨inductionHypothesis, trivial, fun _ => ⟨name, rfl⟩⟩
  | unary _ _ _ inductionHypothesis =>
      exact inductionHypothesis
  | binary _ notMember _ _ leftHypothesis rightHypothesis =>
      exact ⟨leftHypothesis, rightHypothesis,
        fun isMember => absurd isMember notMember⟩
  | loosen _ inductionHypothesis =>
      exact inductionHypothesis

theorem Expression.namesMembers_of_ofSource {keywords : Keywords}
    {limit : Nat} {source : String} {tree : Expression}
    (formed : Expression.ofSource keywords limit source = .ok tree) :
    tree.NamesMembers := by
  obtain ⟨⟨stop, derives, _⟩, _⟩ := Expression.ofSource_eq_ok_iff.1 formed
  obtain ⟨lexemes, phrase, _⟩ := derives.exists_phrase
  exact phrase.namesMembers

/-- What is read from a source is the listing of a tree within the limit that
names its members. -/
theorem Language.exists_tree_of_parse {language : Language} {source : String}
    {tokens : List Token} (parsed : language.parse source = .ok tokens) :
    ∃ tree : Expression, tree.tokens = tokens ∧ tree.NamesMembers ∧
      tree.height ≤ language.limit := by
  obtain ⟨tree, formed, rfl⟩ := Language.parse_eq_ok_iff.1 parsed
  obtain ⟨_, fits⟩ := Expression.ofSource_eq_ok_iff.1 formed
  exact ⟨tree, rfl, Expression.namesMembers_of_ofSource formed, fits⟩

end Formula
