import Formula.Proofs.Diagnosis
import Formula.Proofs.Source.Names

/-!
# Labels of references

The label of a name that stands for nothing is where the name first stands in
the source as a whole identifier. It is sought in the text, not among the
lexemes, so this may be a reference, but also the name of a member, a keyword,
or a part of a string literal.
-/

namespace Formula

open Cursor (isIdentifierPart)

/-! ## The first place of a name -/

section Search

variable {name rest between after : List Char} {last? : Option Char}
  {char : Char}

theorem stands_cons_iff :
    Stands name last? (char :: rest) (char :: between) after ↔
      Stands name (some char) rest between after := by
  have last : (char :: between).getLast?.or last? =
      between.getLast?.or (some char) := by
    rw [List.getLast?_cons]
    cases between.getLast? <;> rfl
  constructor
  · rintro ⟨split, unpreceded, unfollowed⟩
    rw [last] at unpreceded
    exact ⟨(List.cons.inj split).2, unpreceded, unfollowed⟩
  · rintro ⟨split, unpreceded, unfollowed⟩
    rw [← last] at unpreceded
    exact ⟨congrArg (char :: ·) split, unpreceded, unfollowed⟩

/-- A name that does not stand at the beginning of a text stands behind its
first character. -/
theorem Stands.exists_cons
    (stands : Stands name last? (char :: rest) between after)
    (notHere : ∀ after, ¬ Stands name last? (char :: rest) [] after) :
    ∃ front, between = char :: front ∧
      Stands name (some char) rest front after := by
  cases between with
  | nil =>
      exact absurd stands (notHere after)
  | cons first front =>
      obtain rfl : char = first := (List.cons.inj stands.split).1
      exact ⟨front, rfl, stands_cons_iff.1 stands⟩

/-- A search finds the first place of a text where a name stands, if there is
one. -/
def Finds (name : List Char) (last? : Option Char) (offset : Nat)
    (text : List Char) : Option Nat → Prop
  | some found =>
      ∃ between after, Stands name last? text between after ∧
        found = offset + utf8Length between ∧
          ∀ other behind, Stands name last? text other behind →
            found ≤ offset + utf8Length other
  | none => ∀ between after, ¬ Stands name last? text between after

theorem Finds.cons {offset : Nat} {found? : Option Nat}
    (finds : Finds name (some char) (offset + char.utf8Size) rest found?)
    (notHere : ∀ after, ¬ Stands name last? (char :: rest) [] after) :
    Finds name last? offset (char :: rest) found? := by
  cases found? with
  | none =>
      intro between after stands
      obtain ⟨front, _, standsBehind⟩ := stands.exists_cons notHere
      exact finds front after standsBehind
  | some found =>
      obtain ⟨between, after, stands, isFound, isFirst⟩ := finds
      refine ⟨char :: between, after, stands_cons_iff.2 stands, ?_, ?_⟩
      · rw [isFound, utf8Length_cons, Nat.add_assoc]
      · intro other behind otherStands
        obtain ⟨front, rfl, standsBehind⟩ := otherStands.exists_cons notHere
        rw [utf8Length_cons, ← Nat.add_assoc]
        exact isFirst front behind standsBehind

/-- The characters that a search still passes over belong to an identifier, as
does the last one passed. -/
structure PassesIdentifier (skipped : Nat) (last? : Option Char)
    (text : List Char) : Prop where
  last : 0 < skipped → ∃ char, last? = some char ∧ isIdentifierPart char
  passed : ∀ char ∈ text.take (skipped - 1), isIdentifierPart char

theorem PassesIdentifier.zero (last? : Option Char) (text : List Char) :
    PassesIdentifier 0 last? text where
  last isPassed := absurd isPassed (Nat.lt_irrefl 0)
  passed _ isPassed := absurd isPassed List.not_mem_nil

theorem not_any_isIdentifierPart_iff {next? : Option Char} :
    (!next?.any isIdentifierPart) ↔
      ∀ char ∈ next?, isIdentifierPart char = false := by
  cases next? <;> simp

/-- A name stands at the beginning of a text if it is not part of a longer
identifier there. -/
theorem stands_nil_iff {text : List Char} :
    Stands name last? text [] after ↔
      text = name ++ after ∧
        (!last?.any isIdentifierPart &&
          !(text.drop name.length).head?.any isIdentifierPart) := by
  rw [Bool.and_eq_true, not_any_isIdentifierPart_iff,
    not_any_isIdentifierPart_iff]
  constructor
  · rintro ⟨rfl, unpreceded, unfollowed⟩
    rw [List.nil_append, List.drop_left]
    exact ⟨rfl, unpreceded, unfollowed⟩
  · rintro ⟨rfl, unpreceded, unfollowed⟩
    rw [List.drop_left] at unfollowed
    exact ⟨rfl, unpreceded, unfollowed⟩

/-- Behind an occurrence of a name, a search passes over its characters. -/
theorem PassesIdentifier.of_isPrefix (isName : IsIdentifier name)
    (isPrefix : name <+: char :: rest) :
    PassesIdentifier (name.length - 1) (some char) rest := by
  obtain ⟨behind, split⟩ := isPrefix
  have isPart := isName.isPart
  obtain ⟨first, others, rfl, _⟩ := isName
  cases split
  refine ⟨fun _ => ⟨char, rfl, isPart char List.mem_cons_self⟩, ?_⟩
  intro other isPassed
  have within : others.length + 1 - 1 - 1 ≤ others.length := by
    omega
  rw [List.length_cons, List.append_eq, List.take_append_of_le_length within]
    at isPassed
  exact isPart other (List.mem_cons_of_mem _ (List.mem_of_mem_take isPassed))

/-- A search for an identifier finds its first place, although it goes on only
behind an occurrence that is part of a longer identifier. -/
theorem finds_findIdentifier? (isName : IsIdentifier name) (skipped : Nat)
    (last? : Option Char) (offset : Nat) (text : List Char)
    (passes : PassesIdentifier skipped last? text) :
    Finds name last? offset text
      (findIdentifier? name skipped last? offset text) := by
  have notEmpty : name ≠ [] := by
    obtain ⟨first, others, rfl, _⟩ := isName
    exact List.cons_ne_nil first others
  fun_induction findIdentifier? name skipped last? offset text with
  | case1 _ _ _ isWhole =>
      obtain ⟨isEmpty, _⟩ := (Bool.and_eq_true _ _).mp isWhole
      exact absurd (List.isEmpty_iff.1 isEmpty) notEmpty
  | case2 =>
      intro between after stands
      have split := stands.split
      rw [eq_comm, List.append_eq_nil_iff, List.append_eq_nil_iff] at split
      exact notEmpty split.2.1
  | case3 skipped last? offset char rest next isPassed inductionHypothesis =>
      obtain ⟨char', isLast, isPart⟩ := passes.last isPassed
      refine (inductionHypothesis ⟨?_, ?_⟩).cons fun after stands => ?_
      · intro isPassed
        refine ⟨char, rfl, passes.passed char ?_⟩
        obtain ⟨left, isLeft⟩ : ∃ left, skipped - 1 = left + 1 :=
          ⟨skipped - 1 - 1, by omega⟩
        rw [isLeft, List.take_succ_cons]
        exact List.mem_cons_self
      · intro other isLater
        refine passes.passed other ?_
        cases isLeft : skipped - 1 with
        | zero =>
            rw [isLeft] at isLater
            cases isLater
        | succ left =>
            rw [isLeft] at isLater
            rw [List.take_succ_cons]
            exact List.mem_cons_of_mem _ isLater
      · have refused := stands.unpreceded char' isLast
        rw [isPart] at refused
        cases refused
  | case4 _ last? offset char rest _ begins _ isWhole =>
      obtain ⟨after, split⟩ := List.isPrefixOf_iff_prefix.1 begins
      refine ⟨[], after, stands_nil_iff.2 ⟨split.symm, isWhole⟩, rfl, ?_⟩
      intro other _ _
      exact Nat.le_add_right _ _
  | case5 _ last? offset char rest _ _ begins _ notWhole
      inductionHypothesis =>
      have isPrefix := List.isPrefixOf_iff_prefix.1 begins
      refine (inductionHypothesis (.of_isPrefix isName isPrefix)).cons
        fun after stands => ?_
      exact notWhole (stands_nil_iff.1 stands).2
  | case6 _ last? offset char rest _ _ notBegins inductionHypothesis =>
      refine (inductionHypothesis (.zero _ _)).cons fun after stands => ?_
      exact notBegins (List.isPrefixOf_iff_prefix.2
        ⟨after, (stands_nil_iff.1 stands).1.symm⟩)

end Search

/-! ## Labels -/

/-- Evaluating or compiling a source, in some context, ends in an error. -/
inductive Language.FailsWith (language : Language) (source : String)
    (error : Error) : Prop
  | evaluated {σ : Type} {objects : ObjectMembers} {resolver : Resolver σ}
      {state final : σ}
      (failed : language.evaluateWith objects resolver state source =
        (.error error, final))
  | compiled {locals : LocalMap} {members : MemberTypes}
      (failed : language.compile locals members source = .error error)

def Language.ReadsReference (language : Language) (source name : String)
    (offset : Nat) : Prop :=
  ⟨offset, .word name⟩ ∈ (LexemeList.ofSource source).lexemes ∧
    language.keywords.operand name = .reference name

namespace Language

variable {language : Language} {source name : String}

/-- A source of which an unknown reference is reported has been read. -/
theorem FailsWith.exists_parse
    (fails : language.FailsWith source (.unknownReference name)) :
    ∃ tokens, language.parse source = .ok tokens := by
  have notReported :
      language.parse source ≠ .error (.unknownReference name) := by
    intro failed
    obtain ⟨_, _, isWritten⟩ := isWritten_of_parse failed
    cases isWritten
  cases parsed : language.parse source with
  | ok tokens =>
      exact ⟨tokens, rfl⟩
  | error error =>
      refine absurd ?_ notReported
      cases fails with
      | evaluated failed =>
          rw [evaluateWith, parsed] at failed
          cases failed
          exact parsed
      | compiled failed =>
          rw [compile, parsed] at failed
          cases failed
          exact parsed

theorem complete_of_parse {tokens : List Token}
    (parsed : language.parse source = .ok tokens) :
    (LexemeList.ofSource source).error? = none := by
  obtain ⟨tree, formed, _⟩ := parse_eq_ok_iff.1 parsed
  unfold Expression.ofSource Expression.ofLexemes at formed
  split at formed
  · cases formed
  · split at formed
    · cases formed
    · assumption

end Language

section Labels

variable {source name : String}

theorem finds_in_source (source : String)
    (isName : IsIdentifier name.toList) :
    Finds name.toList none 0 source.toList
      (findIdentifier? name.toList 0 none 0 source.toList) :=
  finds_findIdentifier? isName 0 none 0 source.toList (.zero _ _)

/-- A label of a name that stands for nothing is where the name stands in the
source for the first time. -/
theorem standsAt_of_mem_labels (isName : IsIdentifier name.toList)
    {label : Label}
    (isLabel : label ∈ (Error.unknownReference name).labels source) :
    label.text = "not defined" ∧ label.length = name.utf8ByteSize ∧
      StandsAt source name label.offset ∧
        ∀ other, StandsAt source name other → label.offset ≤ other := by
  have finds := finds_in_source source isName
  rw [Error.labels] at isLabel
  cases found : findIdentifier? name.toList 0 none 0 source.toList with
  | none =>
      rw [found] at isLabel
      cases isLabel
  | some offset =>
      rw [found] at isLabel finds
      obtain rfl := List.mem_singleton.1 isLabel
      obtain ⟨between, after, stands, isOffset, isFirst⟩ := finds
      rw [Nat.zero_add] at isOffset
      refine ⟨rfl, rfl, ⟨between, after, stands, isOffset.symm⟩, ?_⟩
      rintro _ ⟨other, behind, otherStands, rfl⟩
      exact Nat.le_trans (isFirst other behind otherStands)
        (Nat.le_of_eq (Nat.zero_add _))

/-- A name that stands in the source has a label. -/
theorem exists_label_of_standsAt (isName : IsIdentifier name.toList)
    {offset : Nat} (stands : StandsAt source name offset) :
    ∃ label ∈ (Error.unknownReference name).labels source,
      label.offset ≤ offset := by
  have finds := finds_in_source source isName
  obtain ⟨between, after, stands, rfl⟩ := stands
  rw [Error.labels]
  cases found : findIdentifier? name.toList 0 none 0 source.toList with
  | none =>
      rw [found] at finds
      exact absurd stands (finds between after)
  | some first =>
      rw [found] at finds
      obtain ⟨_, _, _, _, isFirst⟩ := finds
      refine ⟨_, List.mem_singleton.2 rfl, ?_⟩
      exact Nat.le_trans (isFirst between after stands)
        (Nat.le_of_eq (Nat.zero_add _))

end Labels

/-- Where evaluation or compilation fails for a name that stands for nothing,
the label is on the first place where the name stands as a whole identifier.
There the name is read as a reference, unless it is a keyword, or the name of a
member, or lies between the quotes of a string literal. If the name is read as
a reference, there is a label, and none behind the reference. -/
theorem unknown_reference_labels {language : Language} {source name : String}
    (fails : language.FailsWith source (.unknownReference name))
    (isName : IsIdentifier name.toList) :
    (∀ label ∈ (Error.unknownReference name).labels source,
        label.text = "not defined" ∧ label.length = name.utf8ByteSize ∧
          StandsAt source name label.offset ∧
            (∀ other, StandsAt source name other → label.offset ≤ other) ∧
              (language.ReadsReference source name label.offset ∨
                (⟨label.offset, .word name⟩ ∈
                    (LexemeList.ofSource source).lexemes ∧
                  language.keywords.operand name ≠ .reference name) ∨
                ⟨label.offset, .memberName name⟩ ∈
                  (LexemeList.ofSource source).lexemes ∨
                LiesInString source (LexemeList.ofSource source).lexemes name
                  label.offset)) ∧
      ∀ offset, language.ReadsReference source name offset →
        ∃ label ∈ (Error.unknownReference name).labels source,
          label.offset ≤ offset := by
  refine ⟨fun label isLabel => ?_, fun offset isReference =>
    exists_label_of_standsAt isName (standsAt_of_word isReference.1)⟩
  obtain ⟨isText, isLength, stands, isFirst⟩ :=
    standsAt_of_mem_labels isName isLabel
  obtain ⟨tokens, parsed⟩ := fails.exists_parse
  refine ⟨isText, isLength, stands, isFirst, ?_⟩
  cases stands.bears isName (Language.complete_of_parse parsed) with
  | word isLexeme =>
      by_cases isReference : language.keywords.operand name = .reference name
      · exact .inl ⟨isLexeme, isReference⟩
      · exact .inr (.inl ⟨isLexeme, isReference⟩)
  | memberName isLexeme =>
      exact .inr (.inr (.inl isLexeme))
  | string lies =>
      exact .inr (.inr (.inr lies))

theorem isIdentifier_x : IsIdentifier "x".toList :=
  ⟨'x', [], rfl, rfl, nofun⟩

/-- In the source `xy + x`, the label of `x` is on the second name. -/
theorem unknown_reference_label_behind_longer_name :
    Language.standard.FailsWith "xy + x" (.unknownReference "x") ∧
      IsIdentifier "x".toList ∧
        (Error.unknownReference "x").labels "xy + x" =
            [⟨"not defined", 5, 1⟩] ∧
          StandsAt "xy + x" "x" 5 ∧
            ∀ other, StandsAt "xy + x" "x" other → 5 ≤ other := by
  have failed : Language.standard.evaluate (fun _ _ => none)
      (.ofList [("xy", .constant (.number (.int 1)))]) "xy + x" =
        (.error (.unknownReference "x"), ["x", "xy"]) := by
    decide +kernel
  have labelsEq : (Error.unknownReference "x").labels "xy + x" =
      [⟨"not defined", 5, 1⟩] := by
    decide +kernel
  have fails : Language.standard.FailsWith "xy + x" (.unknownReference "x") :=
    .evaluated failed
  obtain ⟨labelled, _⟩ := unknown_reference_labels fails isIdentifier_x
  obtain ⟨_, _, stands, isFirst, _⟩ := labelled ⟨"not defined", 5, 1⟩
    (by rw [labelsEq]; exact List.mem_cons_self)
  exact ⟨fails, isIdentifier_x, labelsEq, stands, isFirst⟩

/-- In the source `"x" + x`, the label of `x` is on the letter between the
quotes, where nothing is read as a reference. -/
theorem not_forall_labels_on_references :
    ¬ ∀ (language : Language) (source name : String),
      language.FailsWith source (.unknownReference name) →
        IsIdentifier name.toList →
          ∀ label ∈ (Error.unknownReference name).labels source,
            language.ReadsReference source name label.offset := by
  intro labelled
  have failed : Language.standard.evaluate (fun _ _ => none) .empty
      "\"x\" + x" = (.error (.unknownReference "x"), ["x"]) := by
    decide +kernel
  have isLabel : ⟨"not defined", 1, 1⟩ ∈
      (Error.unknownReference "x").labels "\"x\" + x" := by
    decide +kernel
  have noWord : ⟨1, .word "x"⟩ ∉
      (LexemeList.ofSource "\"x\" + x").lexemes := by
    decide +kernel
  exact noWord (labelled .standard "\"x\" + x" "x" (.evaluated failed)
    isIdentifier_x _ isLabel).1

end Formula
