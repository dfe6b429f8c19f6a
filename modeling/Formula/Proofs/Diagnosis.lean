import Formula.Diagnosis
import Formula.Proofs.Language
import Formula.Proofs.Source.Bytes
import Mathlib.Control.Monad.Basic

/-!
# Diagnoses point into the source

An error of the written form shows between two characters of its source, so
that its label is on exactly one character or at the end. The label of a name
that stands for nothing is on an occurrence of this name.
-/

namespace Formula

/-! ## Labels of faults -/

namespace Cursor

/-- Seeking the offset of a place that is reached ends at this place. -/
theorem seek_of_reaches {cursor place : Cursor}
    (reached : cursor.Reaches place) : cursor.seek place.offset = place := by
  obtain ⟨text, restEq, offsetEq⟩ := reached
  obtain ⟨offset, rest⟩ := cursor
  obtain ⟨target, after⟩ := place
  dsimp only at restEq offsetEq ⊢
  induction text generalizing offset rest with
  | nil =>
      subst restEq offsetEq
      cases rest with
      | nil =>
          rw [seek]
      | cons char rest =>
          rw [seek, if_pos (Nat.le_refl _)]
  | cons char text inductionHypothesis =>
      subst restEq
      have before : ¬ target ≤ offset := by
        have width := char.utf8Size_pos
        rw [utf8Length_cons] at offsetEq
        omega
      rw [List.cons_append, seek, if_neg before]
      refine inductionHypothesis _ _ rfl ?_
      rw [offsetEq, utf8Length_cons, Nat.add_assoc]

end Cursor

/-- A fault shows in a source at an offset between two of its characters, and
its label is on the character behind the offset, if there is one. -/
structure SyntaxFault.ShowsIn (fault : SyntaxFault) (source : String)
    (offset : Nat) : Prop where
  within : offset ≤ source.utf8ByteSize
  boundary : String.Pos.Raw.IsValid source ⟨offset⟩
  labels : ∃ before after, source = before ++ after ∧
    before.utf8ByteSize = offset ∧
      (Error.written offset fault).labels source =
        [⟨fault.message, offset,
          (after.toList.head?.map Char.utf8Size).getD 0⟩]

theorem Cursor.Locates.showsIn {source : String} {offset : Nat}
    {fault : SyntaxFault}
    (located : (Cursor.start source).Locates (.written offset fault)) :
    fault.ShowsIn source offset := by
  obtain ⟨place, _, reached, isError⟩ := located
  obtain ⟨rfl, rfl⟩ := Error.written.inj isError
  have isBoundary := Cursor.isBoundary_of_reaches reached
  have sought := Cursor.seek_of_reaches reached
  obtain ⟨before, split, offsetEq⟩ := reached
  refine ⟨isBoundary.within, isBoundary.isValid, _, _, eq_ofList_append split,
    ?_, ?_⟩
  · rw [utf8ByteSize_ofList, offsetEq]
    exact (Nat.zero_add _).symm
  · rw [Error.labels, sought, String.toList_ofList]
    rfl

/-! ## Labels of names -/

/-- Where a name is found, it stands. -/
theorem exists_append_of_findIdentifier? {name text : List Char}
    {skipped offset found : Nat} {before : Option Char}
    (finds : findIdentifier? name skipped before offset text = some found) :
    ∃ front back, text = front ++ (name ++ back) ∧
      found = offset + utf8Length front := by
  have later {char : Char} {rest : List Char} {offset : Nat}
      (stands : ∃ front back, rest = front ++ (name ++ back) ∧
        found = offset + char.utf8Size + utf8Length front) :
      ∃ front back, char :: rest = front ++ (name ++ back) ∧
        found = offset + utf8Length front := by
    obtain ⟨front, back, rfl, rfl⟩ := stands
    exact ⟨char :: front, back, rfl, by rw [utf8Length_cons, Nat.add_assoc]⟩
  fun_induction findIdentifier? name skipped before offset text with
  | case1 skipped before offset isWhole =>
      cases finds
      obtain ⟨isEmpty, _⟩ := (Bool.and_eq_true _ _).mp isWhole
      rw [List.isEmpty_iff] at isEmpty
      exact ⟨[], [], by rw [isEmpty]; rfl, rfl⟩
  | case2 =>
      cases finds
  | case4 skipped before offset char rest _ begins =>
      cases finds
      obtain ⟨back, split⟩ := List.isPrefixOf_iff_prefix.1 begins
      exact ⟨[], back, split.symm, rfl⟩
  | case3 _ _ _ _ _ _ _ inductionHypothesis
  | case5 _ _ _ _ _ _ _ _ _ _ inductionHypothesis
  | case6 _ _ _ _ _ _ _ _ inductionHypothesis =>
      exact later (inductionHypothesis finds)

/-- The label of a name is on an occurrence of it. -/
theorem exists_append_of_mem_labels {name source : String} {label : Label}
    (isLabel : label ∈ (Error.unknownReference name).labels source) :
    ∃ front back, source = front ++ name ++ back ∧
      label.offset = front.utf8ByteSize ∧
        label.length = name.utf8ByteSize := by
  simp only [Error.labels] at isLabel
  split at isLabel
  · rename_i offset finds
    obtain rfl := List.mem_singleton.1 isLabel
    obtain ⟨front, back, split, offsetEq⟩ :=
      exists_append_of_findIdentifier? finds
    refine ⟨String.ofList front, String.ofList back, ?_, ?_, rfl⟩
    · rw [eq_ofList_append split, String.ofList_append, String.ofList_toList,
        String.append_assoc]
    · rw [utf8ByteSize_ofList, offsetEq, Nat.zero_add]
  · cases isLabel

/-! ## Reports -/

/-- Variables report nothing but names that stand for nothing. -/
theorem Variables.not_reports_written (bindings : Variables) (offset : Nat)
    (fault : SyntaxFault) :
    ¬ bindings.resolver.Reports (.written offset fault) := by
  rintro ⟨name, asked, reported⟩
  unfold resolver at reported
  split at reported
  · cases reported
  · cases reported

/-- Tables of members report nothing but members that are not entered. -/
theorem MemberTypes.IsTable.not_reports_written {members : MemberTypes}
    (isTable : members.IsTable) (offset : Nat) (fault : SyntaxFault) :
    ¬ members.Reports (.written offset fault) := by
  intro reports
  obtain ⟨_, _, isUnknown⟩ := isTable.exists_eq_of_reports reports
  cases isUnknown

/-- An error of the written form shows in the source, whether the source is
read, evaluated or compiled, unless a resolver or the types of members make the
error up; variables and tables of members do not. The label of a name that
stands for nothing is on an occurrence of this name. -/
theorem errors_show_in_source (language : Language) (source : String) :
    (∀ offset fault,
        language.parse source = .error (.written offset fault) →
          fault.ShowsIn source offset) ∧
      (∀ (locals : LocalMap) (members : MemberTypes) (offset : Nat)
          (fault : SyntaxFault),
        language.compile locals members source =
            .error (.written offset fault) →
          fault.ShowsIn source offset ∨
            members.Reports (.written offset fault)) ∧
      (∀ (locals : LocalMap) (members : MemberTypes) (offset : Nat)
          (fault : SyntaxFault), members.IsTable →
        language.compile locals members source =
            .error (.written offset fault) →
          fault.ShowsIn source offset) ∧
      (∀ (σ : Type) (objects : ObjectMembers) (resolver : Resolver σ)
          (state final : σ) (offset : Nat) (fault : SyntaxFault),
        language.evaluateWith objects resolver state source =
            (.error (.written offset fault), final) →
          fault.ShowsIn source offset ∨
            resolver.Reports (.written offset fault)) ∧
      (∀ (objects : ObjectMembers) (bindings : Variables)
          (asked : List String) (offset : Nat) (fault : SyntaxFault),
        language.evaluate objects bindings source =
            (.error (.written offset fault), asked) →
          fault.ShowsIn source offset) ∧
      ∀ (name : String),
        ∀ label ∈ (Error.unknownReference name).labels source,
          ∃ front back, source = front ++ name ++ back ∧
            label.offset = front.utf8ByteSize ∧
              label.length = name.utf8ByteSize := by
  have parsing {offset : Nat} {fault : SyntaxFault}
      (failed : language.parse source = .error (.written offset fault)) :
      fault.ShowsIn source offset :=
    (Language.locates_of_parse failed).showsIn
  have evaluating {σ : Type} {objects : ObjectMembers} {resolver : Resolver σ}
      {state final : σ} {offset : Nat} {fault : SyntaxFault}
      (failed : language.evaluateWith objects resolver state source =
        (.error (.written offset fault), final)) :
      fault.ShowsIn source offset ∨
        resolver.Reports (.written offset fault) := by
    rcases Language.parse_or_reports_or_chain_of_evaluateWith
      (.written offset fault) failed with
      parseFailed | reports | ⟨_, _, _, _, _, _, isEndless, _⟩
    · exact .inl (parsing parseFailed)
    · exact .inr reports
    · cases isEndless
  have compiling {locals : LocalMap} {members : MemberTypes} {offset : Nat}
      {fault : SyntaxFault}
      (failed : language.compile locals members source =
        .error (.written offset fault)) :
      fault.ShowsIn source offset ∨
        members.Reports (.written offset fault) :=
    (Language.parse_or_reports_of_compile (.written offset fault)
      failed).imp_left parsing
  refine ⟨fun _ _ => parsing, fun _ _ _ _ => compiling,
    fun locals members offset fault isTable failed => ?_,
    fun _ _ _ _ _ _ _ => evaluating,
    fun objects bindings asked offset fault failed => ?_,
    fun name label => exists_append_of_mem_labels⟩
  · exact (compiling failed).resolve_right
      (isTable.not_reports_written offset fault)
  · exact (evaluating failed).resolve_right
      (bindings.not_reports_written offset fault)

/-- The escape sequence in the source `"é\q"` is none. -/
theorem unknown_escape_shows_in_source :
    Language.standard.parse "\"é\\q\"" =
        .error (.written 3 (.escape (.unknown 'q'))) ∧
      SyntaxFault.ShowsIn (.escape (.unknown 'q')) "\"é\\q\"" 3 := by
  have failed : Language.standard.parse "\"é\\q\"" =
      .error (.written 3 (.escape (.unknown 'q'))) := by
    decide +kernel
  exact ⟨failed, (errors_show_in_source Language.standard _).1 _ _ failed⟩

end Formula
