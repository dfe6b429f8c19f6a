import Formula.Source.Cursor
import Mathlib.Tactic.SplitIfs

/-!
# Texts by their bytes

Every byte of a character that takes several of them is beyond those of ASCII.
Hence where only ASCII characters are accepted, testing the bytes of a text is
testing its characters. As many bytes lie before a place that is reached in a
source as the characters before it take.
-/

namespace Formula

/-! ## Bytes of a character -/

theorem exists_utf8EncodeChar_eq {char : Char} (single : char.utf8Size = 1) :
    ∃ byte, String.utf8EncodeChar char = [byte] ∧ .ofUInt8 byte = char := by
  have small : char.val.toNat ≤ 127 :=
    UInt32.le_iff_toNat_le.1 (Char.utf8Size_eq_one_iff.1 single)
  refine ⟨_, String.utf8EncodeChar_eq_singleton single, ?_⟩
  apply Char.ext
  apply UInt32.toNat_inj.1
  change char.val.toUInt8.toUInt32.toNat = char.val.toNat
  rw [UInt8.toNat_toUInt32, UInt32.toNat_toUInt8]
  omega

theorem utf8Size_ofUInt8_ne_one {char : Char} (wide : char.utf8Size ≠ 1)
    {byte : UInt8} (isByte : byte ∈ String.utf8EncodeChar char) :
    (Char.ofUInt8 byte).utf8Size ≠ 1 := by
  suffices large : 128 ≤ byte.toNat by
    intro single
    have small : (Char.ofUInt8 byte).val.toNat ≤ 127 :=
      UInt32.le_iff_toNat_le.1 (Char.utf8Size_eq_one_iff.1 single)
    change byte.toUInt32.toNat ≤ 127 at small
    rw [UInt8.toNat_toUInt32] at small
    omega
  unfold String.utf8EncodeChar at isByte
  dsimp only at isByte
  split_ifs at isByte with atMost
  · exact absurd (Char.utf8Size_eq_one_iff.2 (UInt32.le_iff_toNat_le.2 atMost))
      wide
  all_goals
    simp only [List.mem_cons, List.not_mem_nil, or_false] at isByte
    rcases isByte with rfl | rfl | rfl | rfl
    all_goals
      rw [UInt8.toNat_ofNat']
      omega

/-! ## Bytes of a text -/

def utf8Bytes (text : List Char) : List UInt8 :=
  text.flatMap String.utf8EncodeChar

theorem utf8Bytes_cons (char : Char) (text : List Char) :
    utf8Bytes (char :: text) = String.utf8EncodeChar char ++ utf8Bytes text :=
  List.flatMap_cons

theorem utf8Bytes_append (left right : List Char) :
    utf8Bytes (left ++ right) = utf8Bytes left ++ utf8Bytes right :=
  List.flatMap_append

theorem length_utf8Bytes (text : List Char) :
    (utf8Bytes text).length = utf8Length text := by
  induction text with
  | nil =>
      rfl
  | cons char rest inductionHypothesis =>
      rw [utf8Bytes_cons, List.length_append, String.length_utf8EncodeChar,
        inductionHypothesis, utf8Length_cons]

theorem toByteArray_eq_utf8Bytes (source : String) :
    source.toByteArray.data.toList = utf8Bytes source.toList := by
  have encoded := String.toByteArray_ofList (l := source.toList)
  rw [String.ofList_toList] at encoded
  rw [encoded]
  exact List.toList_data_toByteArray

/-! ## Tests of bytes -/

def OnlyAscii (accepts : Char → Bool) : Prop :=
  ∀ char, accepts char → char.utf8Size = 1

variable {accepts : Char → Bool}

theorem OnlyAscii.eq_false_of_wide (onlyAscii : OnlyAscii accepts)
    {char : Char} (wide : char.utf8Size ≠ 1) {byte : UInt8}
    (isByte : byte ∈ String.utf8EncodeChar char) :
    accepts (.ofUInt8 byte) = false :=
  Bool.eq_false_iff.2 fun accepted =>
    utf8Size_ofUInt8_ne_one wide isByte (onlyAscii _ accepted)

theorem OnlyAscii.any_head?_utf8Bytes (onlyAscii : OnlyAscii accepts)
    (text : List Char) :
    ((utf8Bytes text).head?.any fun byte => accepts (.ofUInt8 byte)) =
      text.head?.any accepts := by
  cases text with
  | nil =>
      rfl
  | cons char rest =>
      rw [utf8Bytes_cons]
      by_cases single : char.utf8Size = 1
      · obtain ⟨byte, encoded, isChar⟩ := exists_utf8EncodeChar_eq single
        rw [encoded]
        exact congrArg accepts isChar
      · have refused : accepts char = false :=
          Bool.eq_false_iff.2 fun accepted => single (onlyAscii _ accepted)
        cases encoded : String.utf8EncodeChar char with
        | nil =>
            exact absurd encoded String.utf8EncodeChar_ne_nil
        | cons byte others =>
            have isByte : byte ∈ String.utf8EncodeChar char := by
              rw [encoded]
              exact List.mem_cons_self
            exact (onlyAscii.eq_false_of_wide single isByte).trans refused.symm

theorem OnlyAscii.length_takeWhile_utf8Bytes (onlyAscii : OnlyAscii accepts)
    (text : List Char) :
    ((utf8Bytes text).takeWhile fun byte => accepts (.ofUInt8 byte)).length =
      utf8Length (text.takeWhile accepts) := by
  induction text with
  | nil =>
      rfl
  | cons char rest inductionHypothesis =>
      by_cases accepted : accepts char
      · have single := onlyAscii char accepted
        obtain ⟨byte, encoded, isChar⟩ := exists_utf8EncodeChar_eq single
        have byteAccepted : accepts (.ofUInt8 byte) := by
          rw [isChar]
          exact accepted
        rw [utf8Bytes_cons, encoded, List.singleton_append,
          List.takeWhile_cons, if_pos byteAccepted, List.length_cons,
          inductionHypothesis, List.takeWhile_cons_of_pos accepted,
          utf8Length_cons, single, Nat.add_comm]
      · have refused := onlyAscii.any_head?_utf8Bytes (char :: rest)
        rw [List.takeWhile_cons_of_neg accepted]
        rw [List.head?_cons, Option.any_some, Bool.eq_false_iff.2 accepted]
          at refused
        cases bytes : utf8Bytes (char :: rest) with
        | nil =>
            rfl
        | cons byte others =>
            rw [bytes, List.head?_cons, Option.any_some] at refused
            rw [List.takeWhile_cons, if_neg (Bool.eq_false_iff.1 refused)]
            rfl

/-! ## Places between characters -/

theorem utf8ByteSize_ofList (text : List Char) :
    (String.ofList text).utf8ByteSize = utf8Length text := by
  induction text with
  | nil =>
      rfl
  | cons char rest inductionHypothesis =>
      rw [String.ofList_cons, String.utf8ByteSize_append,
        String.utf8ByteSize_singleton, inductionHypothesis, utf8Length_cons]

theorem eq_ofList_append {source : String} {before after : List Char}
    (split : source.toList = before ++ after) :
    source = String.ofList before ++ String.ofList after := by
  rw [← String.ofList_append, ← split, String.ofList_toList]

/-- An offset is at most the length of a source and not inside a character. -/
structure IsBoundary (source : String) (offset : Nat) : Prop where
  within : offset ≤ source.utf8ByteSize
  isValid : String.Pos.Raw.IsValid source ⟨offset⟩

theorem Cursor.isBoundary_of_reaches {source : String} {place : Cursor}
    (reached : (Cursor.start source).Reaches place) :
    IsBoundary source place.offset := by
  obtain ⟨before, split, offsetEq⟩ := reached
  have joined := eq_ofList_append split
  have width : (String.ofList before).utf8ByteSize = place.offset := by
    rw [utf8ByteSize_ofList, offsetEq]
    exact (Nat.zero_add _).symm
  refine ⟨?_, ?_⟩
  · rw [joined, String.utf8ByteSize_append, width]
    exact Nat.le_add_right _ _
  · exact String.Pos.Raw.isValid_iff_exists_append.2
      ⟨_, _, joined, by rw [← width]; rfl⟩

end Formula
