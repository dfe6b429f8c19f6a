import Formula.Proofs.Evaluation.Errors
import Formula.Proofs.Lowering.Errors
import Formula.Proofs.Source.Faults

/-!
# Sources are never malformed

A source is read or has a fault of its written form: no operator misses an
operand while it is read, and no node of the table is listed twice. What is read
lists one tree, and no evaluation or compilation finds that tree malformed, but
for a chain of references without an end.
-/

namespace Formula

/-- A malformed expression is no fault of the written form. -/
theorem Error.not_isWritten_malformed (fault : StructureFault) :
    ¬ (Error.malformed fault).IsWritten := by
  rintro ⟨_, _, isWritten⟩
  cases isWritten

namespace Language

variable {language : Language} {source : String} {error : Error}
  {fault : StructureFault}

/-- An error of form in compiling a source is one of reading it, or the types
of members report it. -/
theorem parse_or_reports_of_compile {locals : LocalMap}
    {members : MemberTypes} (isFormal : error.IsFormal)
    (failed : language.compile locals members source = .error error) :
    language.parse source = .error error ∨ members.Reports error := by
  unfold compile at failed
  cases parsed : language.parse source with
  | error reported =>
      rw [parsed] at failed
      cases failed
      exact .inl rfl
  | ok tokens =>
      rw [parsed] at failed
      obtain ⟨tree, rfl, named, fits⟩ := exists_tree_of_parse parsed
      rcases Code.cases_of_ofTokens isFormal fits failed with
        reports | ⟨_, unnamed⟩
      · exact .inr reports
      · exact absurd named unnamed

/-- An error of form in evaluating a source is one of reading it, or the
resolver reports it, or one of the references in the source stands for further
ones, more than the limit. -/
theorem parse_or_reports_or_chain_of_evaluateWith {σ : Type}
    {objects : ObjectMembers} {resolver : Resolver σ} {state final : σ}
    (isFormal : error.IsFormal)
    (failed : language.evaluateWith objects resolver state source =
      (.error error, final)) :
    language.parse source = .error error ∨
      resolver.Reports error ∨
        ∃ (tree : Expression) (first : String) (start : σ) (last : String),
          language.parse source = .ok tree.tokens ∧
            tree.HasOperand (.reference first) ∧
              error = .malformed (.endlessReference last language.limit) ∧
                resolver.chain language.limit first start =
                  some (last, final) := by
  unfold evaluateWith at failed
  cases parsed : language.parse source with
  | error reported =>
      rw [parsed] at failed
      cases failed
      exact .inl rfl
  | ok tokens =>
      rw [parsed] at failed
      obtain ⟨tree, rfl, named, fits⟩ := exists_tree_of_parse parsed
      rcases cases_of_reduce_evaluation isFormal fits failed with
        reports | ⟨first, start, last, stands, isEndless, chained⟩ |
        ⟨_, unnamed⟩
      · exact .inr (.inl reports)
      · exact .inr (.inr ⟨tree, first, start, last, rfl, stands, isEndless,
          chained⟩)
      · exact absurd named unnamed

theorem parse_ne_malformed :
    language.parse source ≠ .error (.malformed fault) := fun failed =>
  Error.not_isWritten_malformed fault (isWritten_of_parse failed)

/-- A source is malformed to the compiler only if the types of members report
it. -/
theorem reports_of_malformed_compile {locals : LocalMap}
    {members : MemberTypes}
    (failed : language.compile locals members source =
      .error (.malformed fault)) :
    members.Reports (.malformed fault) :=
  (parse_or_reports_of_compile (.malformed fault) failed).resolve_left
    parse_ne_malformed

/-- A source is malformed to evaluation only if the resolver reports it or if
one of its references stands for further ones, more than the limit. -/
theorem reports_or_chain_of_malformed_evaluateWith {σ : Type}
    {objects : ObjectMembers} {resolver : Resolver σ} {state final : σ}
    (failed : language.evaluateWith objects resolver state source =
      (.error (.malformed fault), final)) :
    resolver.Reports (.malformed fault) ∨
      ∃ (tree : Expression) (first : String) (start : σ) (last : String),
        language.parse source = .ok tree.tokens ∧
          tree.HasOperand (.reference first) ∧
            fault = .endlessReference last language.limit ∧
              resolver.chain language.limit first start =
                some (last, final) := by
  have reported := (parse_or_reports_or_chain_of_evaluateWith
    (.malformed fault) failed).resolve_left parse_ne_malformed
  rcases reported with
    reports | ⟨tree, first, start, last, parsed, stands, isEndless, chained⟩
  · exact .inl reports
  · exact .inr ⟨tree, first, start, last, parsed, stands,
      Error.malformed.inj isEndless, chained⟩

end Language

/-- A source from which nothing is read has a fault at some place. What is read
lists exactly one tree, in which every node of the table stands once, and that
tree names its members by references. The compiler never finds a source
malformed, unless the types of members report it; evaluation finds it malformed
only if the resolver reports it or for a chain of more references than the
limit. -/
theorem sources_never_malformed (language : Language) (source : String) :
    (∀ error, language.parse source = .error error → error.IsWritten) ∧
      (∀ tokens, language.parse source = .ok tokens →
        ∃ (root : Nat) (nodes : Array Node) (tree : Expression),
          Parser.ofSource language.keywords language.limit source =
              .ok (root, nodes) ∧
            NodeTable.ListsOnce nodes root tree ∧ tree.tokens = tokens ∧
              tree.NamesMembers ∧
                ∀ other : Expression, other.tokens = tokens → other = tree) ∧
      (∀ (locals : LocalMap) (members : MemberTypes) (fault : StructureFault),
        language.compile locals members source = .error (.malformed fault) →
          members.Reports (.malformed fault)) ∧
      ∀ (σ : Type) (objects : ObjectMembers) (resolver : Resolver σ)
          (state final : σ) (fault : StructureFault),
        language.evaluateWith objects resolver state source =
            (.error (.malformed fault), final) →
          resolver.Reports (.malformed fault) ∨
            ∃ (tree : Expression) (first : String) (start : σ)
                (last : String),
              language.parse source = .ok tree.tokens ∧
                tree.HasOperand (.reference first) ∧
                  fault = .endlessReference last language.limit ∧
                    resolver.chain language.limit first start =
                      some (last, final) := by
  refine ⟨fun error failed => Language.isWritten_of_parse failed,
    fun tokens parsed => ?_,
    fun locals members fault failed =>
      Language.reports_of_malformed_compile failed,
    fun σ objects resolver state final fault failed =>
      Language.reports_or_chain_of_malformed_evaluateWith failed⟩
  obtain ⟨tree, formed, rfl⟩ := Language.parse_eq_ok_iff.1 parsed
  obtain ⟨root, nodes, isRead, lists⟩ := Parser.exists_of_ofSource formed
  exact ⟨root, nodes, tree, isRead, lists, rfl,
    Expression.namesMembers_of_ofSource formed,
    fun other => Expression.tokens_injective⟩

/-- The source `x`, where `x` and `y` stand for each other. -/
theorem endless_chain_of_mutual_references :
    let language : Language := ⟨.standard, 2⟩
    let resolver : Resolver Nat := fun name asked =>
      (.ok (.reference (if name = "x" then "y" else "x")), asked + 1)
    language.parse "x" = .ok [.operand (.reference "x")] ∧
      (∃ (root : Nat) (nodes : Array Node) (tree : Expression),
        Parser.ofSource language.keywords 2 "x" = .ok (root, nodes) ∧
          NodeTable.ListsOnce nodes root tree ∧
            tree.tokens = [.operand (.reference "x")]) ∧
      language.evaluateWith (fun _ _ => none) resolver 0 "x" =
        (.error (.malformed (.endlessReference "x" 2)), 2) ∧
      ∃ (tree : Expression) (first : String) (start : Nat) (last : String),
        language.parse "x" = .ok tree.tokens ∧
          tree.HasOperand (.reference first) ∧
            StructureFault.endlessReference "x" 2 =
              .endlessReference last 2 ∧
              resolver.chain 2 first start = some (last, 2) := by
  intro language resolver
  have word : Derives language.keywords 14 (Cursor.start "x")
      (.operand (.reference "x")) ⟨1, []⟩ :=
    Derives.word (by decide : _ = some ("x", _))
  have formed : Expression.ofSource language.keywords language.limit "x" =
      .ok (.operand (.reference "x")) :=
    Expression.ofSource_eq_ok_iff.2
      ⟨⟨_, word.loosen_of_le (by decide), by decide⟩, by decide⟩
  have parsed : language.parse "x" = .ok [.operand (.reference "x")] :=
    Language.parse_eq_ok_iff.2 ⟨_, formed, rfl⟩
  have failed : language.evaluateWith (fun _ _ => none) resolver 0 "x" =
      (.error (.malformed (.endlessReference "x" 2)), 2) := by
    rw [Language.evaluateWith, parsed]
    cbv
  have sound := sources_never_malformed language "x"
  obtain ⟨root, nodes, tree, isRead, lists, isListed, _⟩ :=
    sound.2.1 _ parsed
  refine ⟨parsed, ⟨root, nodes, tree, isRead, lists, isListed⟩, failed, ?_⟩
  rcases sound.2.2.2 Nat (fun _ _ => none) resolver 0 2 _ failed with
    ⟨name, asked, reported⟩ | chained
  · cases reported
  · exact chained

end Formula
