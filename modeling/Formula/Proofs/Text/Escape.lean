import Formula.Text.Escape
import Mathlib.Tactic.SplitIfs

/-!
# Escaped characters

In how many ways a character is written in a literal, and that each of them is
read back as this character.
-/

namespace Formula

/-! ## Hexadecimal digits -/

theorem hexadecimalValue?_hexadecimalDigit :
    ∀ value < 16, hexadecimalValue? (hexadecimalDigit value) = some value := by
  decide

/-- The digits of a number of two bytes are the digits of this number. -/
theorem readHexadecimal_fourHexadecimalDigits (position : Nat) {value : Nat}
    (small : value < 65536) :
    readHexadecimal position 0 (fourHexadecimalDigits value) = .ok value := by
  have digit (part : Nat) :
      hexadecimalValue? (hexadecimalDigit (part % 16)) = some (part % 16) :=
    hexadecimalValue?_hexadecimalDigit _ (Nat.mod_lt _ (by decide))
  have sum : (((0 * 16 + value / 4096 % 16) * 16 + value / 256 % 16) * 16 +
      value / 16 % 16) * 16 + value % 16 = value := by
    omega
  simp only [fourHexadecimalDigits, readHexadecimal, digit, sum]

theorem readCodePoint_fourHexadecimalDigits (position : Nat) {char : Char}
    (small : char.toNat < 65536) :
    readCodePoint position (fourHexadecimalDigits char.toNat) = .ok char := by
  have valid : char.toNat.isValidChar := char.valid
  have four : ¬ (fourHexadecimalDigits char.toNat).length < 4 := by
    simp [fourHexadecimalDigits]
  rw [readCodePoint, readHexadecimal_fourHexadecimalDigits _ small]
  dsimp only
  rw [if_neg four, dif_pos valid]
  exact congrArg Except.ok (Char.ext (UInt32.toNat_inj.1 rfl))

/-! ## One character -/

/-- A character that neither closes a literal, begins an escape sequence nor
ends the line. -/
def IsPlain (char : Char) : Prop :=
  char ≠ '"' ∧ char ≠ '\\' ∧ char ≠ '\n'

theorem isPlain_hexadecimalDigit :
    ∀ value < 16, IsPlain (hexadecimalDigit value) := by
  unfold IsPlain
  decide

/-- The ways in which a character is written: by the name of an escape
sequence, by its code point or as it is. -/
inductive Writes : Char → List Char → Prop
  | named {name char : Char} (names : namedEscape? name = some char) :
      Writes char ['\\', name]
  | codePoint {char : Char} (control : isControl char) :
      Writes char ('\\' :: 'u' :: fourHexadecimalDigits char.toNat)
  | plain {char : Char} (isPlain : IsPlain char) : Writes char [char]

theorem writes_escapeCharacter (char : Char) :
    Writes char (escapeCharacter char) := by
  unfold escapeCharacter
  split_ifs with quote backslash newline carriageReturn tab null control
  · subst quote
    exact .named rfl
  · subst backslash
    exact .named rfl
  · subst newline
    exact .named rfl
  · subst carriageReturn
    exact .named rfl
  · subst tab
    exact .named rfl
  · subst null
    exact .named rfl
  · exact .codePoint control
  · exact .plain ⟨quote, backslash, newline⟩

theorem toNat_lt_of_isControl {char : Char} (control : isControl char) :
    char.toNat < 65536 := by
  simp only [isControl, Bool.or_eq_true, Bool.and_eq_true, decide_eq_true_eq,
    UInt32.lt_iff_toNat_lt] at control
  have bound : char.toNat < 0x20 ∨ char.toNat < 0xa0 := control.imp_right (·.2)
  omega

/-- However a character is written, it is read back and what follows is read
on. -/
theorem Writes.exists_unescapeFrom {char : Char} {text : List Char}
    (writes : Writes char text) (position : Nat) (written rest : List Char) :
    ∃ after, unescapeFrom position written (text ++ rest) =
      unescapeFrom after (char :: written) rest := by
  cases writes with
  | @named name _ names =>
      have notCodePoint : name ≠ 'u' := by
        rintro rfl
        cases names
      refine ⟨position + 2, ?_⟩
      simp [unescapeFrom, notCodePoint, names]
  | codePoint control =>
      have readBack := readCodePoint_fourHexadecimalDigits position
        (toNat_lt_of_isControl control)
      refine ⟨position + 6, ?_⟩
      simp only [fourHexadecimalDigits] at readBack
      simp [fourHexadecimalDigits, unescapeFrom, readBack]
  | plain isPlain =>
      exact ⟨position + char.utf8Size, by simp [unescapeFrom, isPlain.2.1]⟩

/-! ## A whole text -/

theorem unescapeFrom_flatMap_escapeCharacter (text : List Char) :
    ∀ position written,
      unescapeFrom position written (text.flatMap escapeCharacter) =
        .ok (written.reverse ++ text) := by
  induction text with
  | nil =>
      intro position written
      simp [unescapeFrom]
  | cons char rest inductionHypothesis =>
      intro position written
      obtain ⟨after, readOn⟩ :=
        (writes_escapeCharacter char).exists_unescapeFrom position written
          (rest.flatMap escapeCharacter)
      rw [List.flatMap_cons, readOn, inductionHypothesis]
      simp

theorem unescapeFrom_of_not_mem {text : List Char} (noEscape : '\\' ∉ text) :
    ∀ position written,
      unescapeFrom position written text = .ok (written.reverse ++ text) := by
  induction text with
  | nil =>
      intro position written
      simp [unescapeFrom]
  | cons char rest inductionHypothesis =>
      intro position written
      have notEscape : char ≠ '\\' := (List.ne_of_not_mem_cons noEscape).symm
      have readOn : unescapeFrom position written (char :: rest) =
          unescapeFrom (position + char.utf8Size) (char :: written) rest := by
        simp [unescapeFrom, notEscape]
      rw [readOn, inductionHypothesis (List.not_mem_of_not_mem_cons noEscape),
        List.reverse_cons, List.append_assoc]
      rfl

/-- Content without an escape sequence could as well be read character by
character. -/
theorem unescape_eq_map (content : List Char) :
    unescape content = (unescapeFrom 0 [] content).map String.ofList := by
  by_cases hasEscape : '\\' ∈ content
  · rw [unescape, if_pos hasEscape]
  · rw [unescape, if_neg hasEscape, unescapeFrom_of_not_mem hasEscape]
    rfl

theorem unescape_eq_error_iff {content : List Char} {error : EscapeError} :
    unescape content = .error error ↔
      unescapeFrom 0 [] content = .error error := by
  rw [unescape_eq_map]
  cases unescapeFrom 0 [] content with
  | ok text =>
      exact ⟨nofun, nofun⟩
  | error reported =>
      exact ⟨fun same => by cases same; rfl, fun same => by cases same; rfl⟩

/-- The escaped characters of a text stand for this text. -/
theorem unescape_flatMap_escapeCharacter (text : String) :
    unescape (text.toList.flatMap escapeCharacter) = .ok text := by
  rw [unescape_eq_map, unescapeFrom_flatMap_escapeCharacter]
  exact congrArg Except.ok String.ofList_toList

end Formula
