import Formula.Proofs.Source.Grammar
import Formula.Proofs.Text.Escape

/-!
# Quoted strings

The literal of a string is read back as this string, wherever it stands.
-/

namespace Formula

theorem toList_quote (text : String) :
    (quote text).toList =
      '"' :: (text.toList.flatMap escapeCharacter ++ ['"']) :=
  String.toList_ofList

namespace Cursor

/-! ## Up to the closing quote -/

theorem contentFrom?_cons_plain {char : Char} (isPlain : IsPlain char)
    (read rest : List Char) :
    contentFrom? read (char :: rest) = contentFrom? (char :: read) rest := by
  obtain ⟨notQuote, notBackslash, notNewline⟩ := isPlain
  simp [contentFrom?, notQuote, notBackslash, notNewline]

/-- However a character is written, it does not close the literal. -/
theorem contentFrom?_append_of_writes {char : Char} {text : List Char}
    (writes : Writes char text) (read rest : List Char) :
    contentFrom? read (text ++ rest) =
      contentFrom? (text.reverse ++ read) rest := by
  cases writes with
  | named =>
      rfl
  | codePoint =>
      have digit (part : Nat) : IsPlain (hexadecimalDigit (part % 16)) :=
        isPlain_hexadecimalDigit _ (Nat.mod_lt _ (by decide))
      change contentFrom? ('u' :: '\\' :: read) (_ ++ rest) = _
      simp [fourHexadecimalDigits, contentFrom?_cons_plain (digit _)]
  | plain isPlain =>
      exact contentFrom?_cons_plain isPlain read rest

/-- An escaped text ends at the quote that follows it. -/
theorem contentFrom?_flatMap_escapeCharacter (text read rest : List Char) :
    contentFrom? read (text.flatMap escapeCharacter ++ '"' :: rest) =
      some (read.reverse ++ text.flatMap escapeCharacter) := by
  induction text generalizing read with
  | nil =>
      simp [contentFrom?]
  | cons char text inductionHypothesis =>
      rw [List.flatMap_cons, List.append_assoc,
        contentFrom?_append_of_writes (writes_escapeCharacter char),
        inductionHypothesis]
      simp

/-! ## The literal -/

/-- The literal of a string is read back from any place of a source, up to
where it ends. -/
theorem string_quote (text : String) (offset : Nat) (rest : List Char) :
    Cursor.string ⟨offset, (quote text).toList ++ rest⟩ =
      .ok (text, ⟨offset + utf8Length (quote text).toList, rest⟩) := by
  let escaped := text.toList.flatMap escapeCharacter
  have opens : (quote text).toList ++ rest =
      '"' :: (escaped ++ '"' :: rest) := by
    simp [toList_quote, escaped]
  have content : Cursor.content? ⟨offset + 1, escaped ++ '"' :: rest⟩ =
      some escaped :=
    contentFrom?_flatMap_escapeCharacter text.toList [] rest
  have peeks : (Cursor.mk offset ('"' :: (escaped ++ '"' :: rest))).peek? =
      some '"' := rfl
  have inside : (Cursor.mk offset ('"' :: (escaped ++ '"' :: rest))).skip =
      ⟨offset + 1, escaped ++ '"' :: rest⟩ := rfl
  have after : ((Cursor.mk (offset + 1)
      (escaped ++ '"' :: rest)).advance escaped).skip =
        ⟨offset + utf8Length (quote text).toList, rest⟩ := by
    have width : '"'.utf8Size = 1 := rfl
    simp [advance, skip, toList_quote, escaped, width]
    omega
  have reads : unescape escaped = .ok text :=
    unescape_flatMap_escapeCharacter text
  rw [opens, string, if_pos peeks, inside]
  simp only [content, reads, after]

theorem skipBlanks_start_quote (text : String) :
    (Cursor.start (quote text)).skipBlanks = Cursor.start (quote text) := by
  simp only [start, toList_quote]
  rfl

end Cursor

/-- The literal of a string spells this string. -/
theorem spells_quote {keywords : Keywords} (text : String) :
    Spells keywords (quote text) (.operand (.constant (.string text))) := by
  have read : (Cursor.start (quote text)).skipBlanks.string =
      .ok (text, ⟨0 + utf8Length (quote text).toList, []⟩) := by
    rw [Cursor.skipBlanks_start_quote]
    simpa [Cursor.start] using Cursor.string_quote text 0 []
  exact ⟨_, (Derives.string read).loosen_of_le (by decide), rfl⟩

/-- The literal of a string is read back as this string, with no character
more or less, also as a whole source; the literals of two strings differ. -/
theorem literal_reads_back (text : String) :
    (∀ offset rest,
      Cursor.string ⟨offset, (quote text).toList ++ rest⟩ =
        .ok (text, ⟨offset + utf8Length (quote text).toList, rest⟩)) ∧
      (∀ language : Language, 1 ≤ language.limit →
        language.parse (quote text) =
          .ok [.operand (.constant (.string text))]) ∧
      ∀ other, quote other = quote text → other = text := by
  refine ⟨Cursor.string_quote text, fun language room => ?_,
    fun other same => ?_⟩
  · exact Language.parse_eq_ok_iff.2 ⟨_, Expression.ofSource_eq_ok_iff.2
      ⟨spells_quote text, room⟩, rfl⟩
  · have read := Cursor.string_quote text 0 []
    have readOther := Cursor.string_quote other 0 []
    rw [same, read] at readOther
    cases readOther
    rfl

theorem literal_of_marks_reads_back :
    quote "\"\\\n\x00\x85é" = "\"\\\"\\\\\\n\\0\\u0085é\"" ∧
      Language.standard.parse "\"\\\"\\\\\\n\\0\\u0085é\"" =
        .ok [.operand (.constant (.string "\"\\\n\x00\x85é"))] := by
  have written : quote "\"\\\n\x00\x85é" =
      "\"\\\"\\\\\\n\\0\\u0085é\"" := by
    decide
  refine ⟨written, ?_⟩
  have reads := (literal_reads_back "\"\\\n\x00\x85é").2.1
    Language.standard (by decide)
  rwa [written] at reads

end Formula
