import Mathlib.Algebra.Group.Nat.Defs
import Formula.Proofs.Source.Places
import Formula.Proofs.Source.Quoted
import Formula.Source.Numeral

/-!
# Bodies of string literals

What stands between the quotes of a literal is a sequence of items: characters
that stand for themselves and escape sequences. Two things read it, one that
looks for the closing quote and keeps clear of the character after a backslash,
and one that reads the escape sequences. Both agree on where a literal ends.
-/

namespace Formula

/-! ## Items -/

/-- The names of escape sequences, and the characters that they stand for. -/
def escapeNames : List (Char × Char) :=
  [('n', '\n'), ('r', '\r'), ('t', '\t'), ('b', '\x08'), ('f', '\x0c'),
    ('0', '\x00'), ('\\', '\\'), ('"', '"'), ('\'', '\'')]

/-- Four hexadecimal digits that write no surrogate. -/
structure IsCodePoint (digits : List Char) : Prop where
  length_eq : digits.length = 4
  isSome : ∀ digit ∈ digits, (hexadecimalValue? digit).isSome
  notSurrogate : ¬ (0xD800 ≤ hexadecimalValue digits ∧
    hexadecimalValue digits ≤ 0xDFFF)

/-- A piece of the body of a literal that stands for one character. -/
inductive BodyItem
  | plain (char : Char) (isPlain : IsPlain char)
  | named (name char : Char) (names : (name, char) ∈ escapeNames)
  | codePoint (digits : List Char) (isCodePoint : IsCodePoint digits)

namespace BodyItem

def text : BodyItem → List Char
  | .plain char _ => [char]
  | .named name _ _ => ['\\', name]
  | .codePoint digits _ => '\\' :: 'u' :: digits

def value : BodyItem → Char
  | .plain char _ => char
  | .named _ char _ => char
  | .codePoint digits _ => Char.ofNat (hexadecimalValue digits)

end BodyItem

def bodyText (items : List BodyItem) : List Char :=
  items.flatMap BodyItem.text

@[simp] theorem bodyText_nil : bodyText [] = [] := rfl

@[simp] theorem bodyText_cons (item : BodyItem) (items : List BodyItem) :
    bodyText (item :: items) = item.text ++ bodyText items := rfl

theorem mem_escapeNames_iff {name char : Char} :
    (name, char) ∈ escapeNames ↔ namedEscape? name = some char := by
  constructor
  · intro isListed
    have listed : ∀ entry ∈ escapeNames,
        namedEscape? entry.1 = some entry.2 := by
      decide
    exact listed _ isListed
  · intro names
    unfold namedEscape? at names
    split_ifs at names with newline carriageReturn tab backspace formFeed null
      itself
    all_goals
      cases names
    all_goals first
      | subst name; decide
      | rcases itself with rfl | rfl | rfl <;> decide

/-! ## Code points -/

theorem hexadecimalValue?_lt {char : Char} {digit : Nat}
    (isDigit : hexadecimalValue? char = some digit) : digit < 16 := by
  have toNat_le {char last : Char} (atMost : char ≤ last) :
      char.toNat ≤ last.toNat := atMost
  unfold hexadecimalValue? at isDigit
  split_ifs at isDigit with decimal lower upper
  · have bound : char.toNat ≤ 57 := toNat_le decimal.2
    have zero : '0'.toNat = 48 := rfl
    cases isDigit
    omega
  · have bound : char.toNat ≤ 102 := toNat_le lower.2
    have first : 'a'.toNat = 97 := rfl
    cases isDigit
    omega
  · have bound : char.toNat ≤ 70 := toNat_le upper.2
    have first : 'A'.toNat = 65 := rfl
    cases isDigit
    omega

/-- The number that hexadecimal digits make of what was read before them. -/
def hexadecimalValueFrom (value : Nat) (digits : List Char) : Nat :=
  digits.foldl
    (fun value digit => value * 16 + (hexadecimalValue? digit).getD 0) value

theorem hexadecimalValueFrom_lt {digits : List Char}
    (isSome : ∀ digit ∈ digits, (hexadecimalValue? digit).isSome) :
    ∀ value, hexadecimalValueFrom value digits <
      (value + 1) * 16 ^ digits.length := by
  induction digits with
  | nil =>
      intro value
      exact (Nat.mul_one (value + 1)).symm ▸ Nat.lt_succ_self value
  | cons first rest inductionHypothesis =>
      intro value
      obtain ⟨digit, isDigit⟩ :=
        Option.isSome_iff_exists.1 (isSome first List.mem_cons_self)
      have small := hexadecimalValue?_lt isDigit
      have readOn := inductionHypothesis
        (fun digit isRest => isSome digit (List.mem_cons_of_mem _ isRest))
        (value * 16 + digit)
      have grows : (value * 16 + digit + 1) * 16 ^ rest.length ≤
          (value + 1) * 16 * 16 ^ rest.length :=
        Nat.mul_le_mul_right _ (by omega)
      rw [List.length_cons, Nat.pow_succ', ← Nat.mul_assoc]
      refine Nat.lt_of_lt_of_le ?_ grows
      rw [hexadecimalValueFrom, List.foldl_cons, isDigit]
      exact readOn

/-- Digits are read if all of them are, and make the number that they
write. -/
theorem readHexadecimal_eq_ok_iff {digits : List Char} :
    ∀ {position value result : Nat},
      readHexadecimal position value digits = .ok result ↔
        (∀ digit ∈ digits, (hexadecimalValue? digit).isSome) ∧
          result = hexadecimalValueFrom value digits := by
  induction digits with
  | nil =>
      intro position value result
      constructor
      · intro read
        cases read
        exact ⟨nofun, rfl⟩
      · rintro ⟨_, rfl⟩
        rfl
  | cons first rest inductionHypothesis =>
      intro position value result
      rw [readHexadecimal]
      cases isDigit : hexadecimalValue? first with
      | none =>
          simp [isDigit]
      | some digit =>
          simp [isDigit, inductionHypothesis, hexadecimalValueFrom]

/-- A code point of four digits is read exactly if it is one. -/
theorem readCodePoint_eq_ok_iff {position : Nat} {digits : List Char}
    {char : Char} :
    digits.length = 4 → (readCodePoint position digits = .ok char ↔
      IsCodePoint digits ∧ char = Char.ofNat (hexadecimalValue digits)) := by
  intro four
  have notFewer : ¬ digits.length < 4 := by
    omega
  unfold readCodePoint
  cases read : readHexadecimal (position + 2) 0 digits with
  | error error =>
      refine ⟨nofun, fun ⟨isCodePoint, _⟩ => ?_⟩
      have wouldRead : readHexadecimal (position + 2) 0 digits = .ok _ :=
        readHexadecimal_eq_ok_iff.2 ⟨isCodePoint.isSome, rfl⟩
      rw [read] at wouldRead
      cases wouldRead
  | ok value =>
      obtain ⟨isSome, rfl⟩ := readHexadecimal_eq_ok_iff.1 read
      have small : hexadecimalValue digits < 65536 := by
        have bound := hexadecimalValueFrom_lt isSome 0
        rwa [four] at bound
      have isValue : hexadecimalValueFrom 0 digits =
          hexadecimalValue digits := rfl
      have valid_iff : (hexadecimalValue digits).isValidChar ↔
          ¬ (0xD800 ≤ hexadecimalValue digits ∧
            hexadecimalValue digits ≤ 0xDFFF) := by
        unfold Nat.isValidChar
        omega
      dsimp only
      rw [if_neg notFewer, isValue]
      by_cases valid : (hexadecimalValue digits).isValidChar
      · have ofNat : Char.ofNat (hexadecimalValue digits) =
            Char.ofNatAux (hexadecimalValue digits) valid := dif_pos valid
        rw [dif_pos valid, ofNat]
        constructor
        · intro same
          cases same
          exact ⟨⟨four, isSome, valid_iff.1 valid⟩, rfl⟩
        · rintro ⟨_, rfl⟩
          rfl
      · rw [dif_neg valid]
        refine ⟨nofun, fun ⟨isCodePoint, _⟩ => ?_⟩
        exact absurd (valid_iff.2 isCodePoint.notSurrogate) valid

/-! ## One way to read -/

namespace BodyItem

/-- What begins with a backslash is a named escape sequence or a code point. -/
theorem cases_of_backslash {item : BodyItem} {rest faulty : List Char}
    (begins : item.text ++ rest = '\\' :: faulty) :
    (∃ name char, ∃ names : (name, char) ∈ escapeNames,
      item = .named name char names ∧ faulty = name :: rest) ∨
      ∃ digits, ∃ isCodePoint : IsCodePoint digits,
        item = .codePoint digits isCodePoint ∧
          faulty = 'u' :: (digits ++ rest) := by
  cases item with
  | plain char isPlain =>
      cases begins
      exact absurd rfl isPlain.2.1
  | named name char names =>
      cases begins
      exact .inl ⟨name, char, names, rfl, rfl⟩
  | codePoint digits isCodePoint =>
      cases begins
      exact .inr ⟨digits, isCodePoint, rfl, rfl⟩

theorem ne_of_mem_escapeNames {name char : Char}
    (names : (name, char) ∈ escapeNames) : name ≠ 'u' := by
  rintro rfl
  cases mem_escapeNames_iff.1 names

/-- A text begins with at most one item. -/
theorem eq_of_text_append_eq {item other : BodyItem}
    {rest otherRest : List Char}
    (same : item.text ++ rest = other.text ++ otherRest) :
    item = other ∧ rest = otherRest := by
  cases other with
  | plain char isPlain =>
      cases item with
      | plain =>
          cases same
          exact ⟨rfl, rfl⟩
      | named | codePoint =>
          cases same
          exact absurd rfl isPlain.2.1
  | named name char names =>
      rcases cases_of_backslash same with
        ⟨_, _, itemNames, rfl, isRest⟩ | ⟨_, _, rfl, isRest⟩
      · cases isRest
        have sameChar := (mem_escapeNames_iff.1 itemNames).symm.trans
          (mem_escapeNames_iff.1 names)
        cases sameChar
        exact ⟨rfl, rfl⟩
      · cases isRest
        exact absurd rfl (ne_of_mem_escapeNames names)
  | codePoint digits isCodePoint =>
      rcases cases_of_backslash same with
        ⟨_, _, itemNames, rfl, isRest⟩ | ⟨itemDigits, itemIsCodePoint, rfl,
          isRest⟩
      · cases isRest
        exact absurd rfl (ne_of_mem_escapeNames itemNames)
      · have sameLength : digits.length = itemDigits.length :=
          isCodePoint.length_eq.trans itemIsCodePoint.length_eq.symm
        obtain ⟨rfl, rfl⟩ := List.append_inj (List.cons.inj isRest).2 sameLength
        exact ⟨rfl, rfl⟩

theorem text_ne_quote (item : BodyItem) (rest other : List Char) :
    item.text ++ rest ≠ '"' :: other := by
  intro same
  cases item with
  | plain char isPlain =>
      cases same
      exact isPlain.1 rfl
  | named | codePoint =>
      cases same

end BodyItem

/-- A text begins with at most one body and its closing quote. -/
theorem eq_of_bodyText_append_eq {items : List BodyItem} :
    ∀ {others : List BodyItem} {rest otherRest : List Char},
      bodyText items ++ '"' :: rest = bodyText others ++ '"' :: otherRest →
        items = others ∧ rest = otherRest := by
  induction items with
  | nil =>
      intro others rest otherRest same
      cases others with
      | nil =>
          cases same
          exact ⟨rfl, rfl⟩
      | cons other others =>
          rw [bodyText_cons, List.append_assoc] at same
          exact absurd same.symm (other.text_ne_quote _ _)
  | cons item items inductionHypothesis =>
      intro others rest otherRest same
      rw [bodyText_cons, List.append_assoc] at same
      cases others with
      | nil =>
          exact absurd same (item.text_ne_quote _ _)
      | cons other others =>
          rw [bodyText_cons, List.append_assoc] at same
          obtain ⟨rfl, sameRest⟩ := BodyItem.eq_of_text_append_eq same
          obtain ⟨rfl, rfl⟩ := inductionHypothesis sameRest
          exact ⟨rfl, rfl⟩

/-! ## Up to the closing quote -/

/-- A text after an opening quote leaves the literal open: neither a quote nor
the end of the line stands in it without a backslash before. -/
inductive LeavesOpen : List Char → Prop
  | nil : LeavesOpen []
  | escaped (char : Char) {rest : List Char} (opens : LeavesOpen rest) :
      LeavesOpen ('\\' :: char :: rest)
  | plain {char : Char} {rest : List Char} (isPlain : IsPlain char)
      (opens : LeavesOpen rest) : LeavesOpen (char :: rest)

theorem LeavesOpen.of_forall_isPlain {text rest : List Char}
    (isPlain : ∀ char ∈ text, IsPlain char) (opens : LeavesOpen rest) :
    LeavesOpen (text ++ rest) := by
  induction text with
  | nil =>
      exact opens
  | cons char text inductionHypothesis =>
      exact .plain (isPlain char List.mem_cons_self)
        (inductionHypothesis fun char isText =>
          isPlain char (List.mem_cons_of_mem _ isText))

theorem isPlain_of_hexadecimalValue? {char : Char}
    (isDigit : (hexadecimalValue? char).isSome) : IsPlain char := by
  refine ⟨?_, ?_, ?_⟩ <;>
    · rintro rfl
      cases isDigit

/-- The items of a body leave the literal open. -/
theorem leavesOpen_bodyText (items : List BodyItem) :
    LeavesOpen (bodyText items) := by
  induction items with
  | nil =>
      exact .nil
  | cons item items inductionHypothesis =>
      rw [bodyText_cons]
      cases item with
      | plain char isPlain =>
          exact .plain isPlain inductionHypothesis
      | named name =>
          exact .escaped name inductionHypothesis
      | codePoint digits isCodePoint =>
          exact .escaped 'u' (.of_forall_isPlain
            (fun digit isDigit =>
              isPlain_of_hexadecimalValue? (isCodePoint.isSome digit isDigit))
            inductionHypothesis)

namespace Cursor

theorem contentFrom?_of_leavesOpen {content : List Char}
    (opens : LeavesOpen content) :
    ∀ read rest, contentFrom? read (content ++ '"' :: rest) =
      some (read.reverse ++ content) := by
  induction opens with
  | nil =>
      intro read rest
      simp [contentFrom?]
  | escaped char opens inductionHypothesis =>
      intro read rest
      simp [contentFrom?, inductionHypothesis]
  | plain isPlain opens inductionHypothesis =>
      intro read rest
      rw [List.cons_append, contentFrom?_cons_plain isPlain,
        inductionHypothesis]
      simp

theorem exists_leavesOpen_of_contentFrom? {read text found : List Char}
    (isFound : contentFrom? read text = some found) :
    ∃ content rest, LeavesOpen content ∧ text = content ++ '"' :: rest ∧
      found = read.reverse ++ content := by
  fun_induction contentFrom? read text with
  | case1 =>
      cases isFound
  | case2 read char rest inductionHypothesis =>
      obtain ⟨content, after, opens, rfl, rfl⟩ := inductionHypothesis isFound
      exact ⟨'\\' :: char :: content, after, .escaped char opens, rfl,
        by simp⟩
  | case3 read rest _ =>
      cases isFound
      exact ⟨[], rest, .nil, rfl, (List.append_nil _).symm⟩
  | case4 =>
      cases isFound
  | case5 read char rest notEscape notQuote notNewline inductionHypothesis =>
      obtain ⟨content, after, opens, rfl, rfl⟩ := inductionHypothesis isFound
      obtain ⟨first, others, isCons⟩ := List.exists_cons_of_ne_nil
        (List.append_ne_nil_of_right_ne_nil content
          (List.cons_ne_nil '"' after))
      have isPlain : IsPlain char :=
        ⟨notQuote, fun isBackslash => notEscape _ _ isBackslash isCons,
          notNewline⟩
      exact ⟨char :: content, after, .plain isPlain opens, rfl, by simp⟩

/-- The content of a literal is what leaves it open up to a quote. -/
theorem content?_eq_some_iff {cursor : Cursor} {content : List Char} :
    cursor.content? = some content ↔
      LeavesOpen content ∧ ∃ rest, cursor.rest = content ++ '"' :: rest := by
  constructor
  · intro isFound
    obtain ⟨inner, rest, opens, restEq, rfl⟩ :=
      exists_leavesOpen_of_contentFrom? isFound
    exact ⟨opens, rest, restEq⟩
  · rintro ⟨opens, rest, restEq⟩
    rw [content?, restEq]
    exact contentFrom?_of_leavesOpen opens [] rest

end Cursor

/-! ## Escape sequences -/

/-- A content is made of items up to an escape sequence that begins none. -/
structure FirstFault (content : List Char) (items : List BodyItem)
    (faulty : List Char) : Prop where
  content_eq : content = bodyText items ++ '\\' :: faulty
  notItem : ∀ item : BodyItem, ¬ item.text <+: '\\' :: faulty

/-- A fault shows at the first escape sequence of a content that is none, or
after it inside the content. -/
def EscapeError.ShowsFault (error : EscapeError) (start : Nat)
    (content : List Char) : Prop :=
  error.fault ≠ .dangling ∧ ∃ items faulty, FirstFault content items faulty ∧
    error.IsWithin (start + utf8Length (bodyText items)) ('\\' :: faulty)

/-- What a content is read as: the characters of its items, or a fault. -/
inductive UnescapesTo (start : Nat) (written content : List Char) :
    Except EscapeError (List Char) → Prop
  | items {items : List BodyItem} (content_eq : content = bodyText items) :
      UnescapesTo start written content
        (.ok (written.reverse ++ items.map BodyItem.value))
  | fault {error : EscapeError} (shows : error.ShowsFault start content) :
      UnescapesTo start written content (.error error)

theorem UnescapesTo.cons {start next : Nat} {written rest : List Char}
    {outcome : Except EscapeError (List Char)} (item : BodyItem)
    (isNext : next = start + utf8Length item.text)
    (unescapes : UnescapesTo next (item.value :: written) rest outcome) :
    UnescapesTo start written (item.text ++ rest) outcome := by
  subst isNext
  cases unescapes with
  | @items items restEq =>
      have whole : item.text ++ rest = bodyText (item :: items) := by
        rw [bodyText_cons, restEq]
      have read : (item.value :: written).reverse ++
          items.map BodyItem.value =
            written.reverse ++ (item :: items).map BodyItem.value := by
        simp
      rw [read]
      exact .items whole
  | fault shows =>
      obtain ⟨notDangling, items, faulty, ⟨restEq, notItem⟩, within⟩ := shows
      have whole : item.text ++ rest =
          bodyText (item :: items) ++ '\\' :: faulty := by
        rw [bodyText_cons, restEq, List.append_assoc]
      refine .fault ⟨notDangling, item :: items, faulty, ⟨whole, notItem⟩, ?_⟩
      rwa [bodyText_cons, utf8Length_append, ← Nat.add_assoc]

/-- A fault at the beginning of a content. -/
theorem UnescapesTo.here {start : Nat} {written faulty : List Char}
    {error : EscapeError} (notDangling : error.fault ≠ .dangling)
    (notItem : ∀ item : BodyItem, ¬ item.text <+: '\\' :: faulty)
    (within : error.IsWithin start ('\\' :: faulty)) :
    UnescapesTo start written ('\\' :: faulty) (.error error) :=
  .fault ⟨notDangling, [], faulty, ⟨rfl, notItem⟩, within⟩

theorem not_dangling_of_readHexadecimal {error : EscapeError}
    {digits : List Char} :
    ∀ {position value : Nat},
      readHexadecimal position value digits = .error error →
        error.fault ≠ .dangling := by
  induction digits with
  | nil =>
      intro position value failed
      cases failed
  | cons first rest inductionHypothesis =>
      intro position value failed
      rw [readHexadecimal] at failed
      split at failed
      · exact inductionHypothesis failed
      · cases failed
        exact EscapeFault.noConfusion

theorem not_dangling_of_readCodePoint {error : EscapeError} {position : Nat}
    {digits : List Char}
    (failed : readCodePoint position digits = .error error) :
    error.fault ≠ .dangling := by
  unfold readCodePoint at failed
  split at failed
  · rename_i hexadecimalFailed
    cases failed
    exact not_dangling_of_readHexadecimal hexadecimalFailed
  · rename_i value _
    by_cases tooFew : digits.length < 4
    · rw [if_pos tooFew] at failed
      cases failed
      exact EscapeFault.noConfusion
    · rw [if_neg tooFew] at failed
      by_cases isValid : value.isValidChar
      · rw [dif_pos isValid] at failed
        cases failed
      · rw [dif_neg isValid] at failed
        cases failed
        exact EscapeFault.noConfusion

theorem LeavesOpen.of_escaped {char : Char} {rest : List Char}
    (opens : LeavesOpen ('\\' :: char :: rest)) : LeavesOpen rest := by
  cases opens with
  | escaped _ opens =>
      exact opens
  | plain isPlain =>
      exact absurd rfl isPlain.2.1

theorem LeavesOpen.of_plain {char : Char} {rest : List Char}
    (isPlain : IsPlain char) (opens : LeavesOpen (char :: rest)) :
    LeavesOpen rest := by
  cases opens with
  | escaped =>
      exact absurd rfl isPlain.2.1
  | plain _ opens =>
      exact opens

theorem LeavesOpen.of_append {text rest : List Char}
    (isPlain : ∀ char ∈ text, IsPlain char)
    (opens : LeavesOpen (text ++ rest)) : LeavesOpen rest := by
  induction text with
  | nil =>
      exact opens
  | cons char text inductionHypothesis =>
      exact inductionHypothesis
        (fun char isText => isPlain char (List.mem_cons_of_mem _ isText))
        (opens.of_plain (isPlain char List.mem_cons_self))

theorem isPlain_of_leavesOpen {char : Char} {rest : List Char}
    (notEscape : char ≠ '\\') (opens : LeavesOpen (char :: rest)) :
    IsPlain char := by
  cases opens with
  | escaped =>
      exact absurd rfl notEscape
  | plain isPlain =>
      exact isPlain

/-- No item begins with a backslash and `u` where no code point follows. -/
theorem not_prefix_of_not_isCodePoint {rest : List Char}
    (notCodePoint : ∀ digits, digits <+: rest → ¬ IsCodePoint digits)
    (item : BodyItem) : ¬ item.text <+: '\\' :: 'u' :: rest := by
  rintro ⟨after, isPrefix⟩
  rcases BodyItem.cases_of_backslash isPrefix with
    ⟨_, _, names, _, isRest⟩ | ⟨digits, isCodePoint, _, isRest⟩
  · cases isRest
    exact BodyItem.ne_of_mem_escapeNames names rfl
  · exact notCodePoint digits ⟨after, (List.cons.inj isRest).2.symm⟩
      isCodePoint

theorem IsCodePoint.exists_eq {digits : List Char}
    (isCodePoint : IsCodePoint digits) :
    ∃ first second third fourth, digits = [first, second, third, fourth] := by
  have four := isCodePoint.length_eq
  match digits, four with
  | [first, second, third, fourth], _ =>
      exact ⟨first, second, third, fourth, rfl⟩

theorem length_lt_four {digits : List Char}
    (tooFew : ∀ first second third fourth rest,
      digits = first :: second :: third :: fourth :: rest → False) :
    digits.length < 4 := by
  match digits with
  | [] | [_] | [_, _] | [_, _, _] =>
      simp
  | first :: second :: third :: fourth :: rest =>
      exact absurd rfl (tooFew first second third fourth rest)

theorem not_readCodePoint_of_length_lt {position : Nat} {digits : List Char}
    {char : Char} (tooFew : digits.length < 4) :
    readCodePoint position digits ≠ .ok char := by
  intro read
  unfold readCodePoint at read
  split at read
  · cases read
  · rw [if_pos tooFew] at read
    cases read

/-- Whatever leaves a literal open is read as the characters of its items, or a
fault shows at the first escape sequence that is none. -/
theorem unescapesTo_unescapeFrom {content : List Char} (position : Nat)
    (written : List Char) (opens : LeavesOpen content) :
    UnescapesTo position written content
      (unescapeFrom position written content) := by
  fun_induction unescapeFrom position written content with
  | case1 position written =>
      have none : written.reverse =
          written.reverse ++ [].map BodyItem.value :=
        (List.append_nil _).symm
      rw [none]
      exact .items rfl
  | case2 position written first second third fourth rest char read
      inductionHypothesis =>
      let digits := [first, second, third, fourth]
      obtain ⟨isCodePoint, rfl⟩ := (readCodePoint_eq_ok_iff rfl).1 read
      have digitsOpen : LeavesOpen (digits ++ rest) := opens.of_escaped
      have restOpens : LeavesOpen rest :=
        digitsOpen.of_append fun digit isDigit =>
          isPlain_of_hexadecimalValue? (isCodePoint.isSome digit isDigit)
      have width : utf8Length digits = 4 := utf8Length_of_readCodePoint read
      refine .cons (.codePoint digits isCodePoint) ?_
        (inductionHypothesis restOpens)
      rw [BodyItem.text, utf8Length_cons, utf8Length_cons, width]
      rfl
  | case3 position written first second third fourth rest error
      readFailed =>
      refine .here (not_dangling_of_readCodePoint readFailed)
        (not_prefix_of_not_isCodePoint fun digits isPrefix isCodePoint => ?_)
        ((isWithin_of_readCodePoint readFailed).append rest)
      obtain ⟨_, _, _, _, rfl⟩ := isCodePoint.exists_eq
      obtain ⟨after, same⟩ := isPrefix
      cases same
      have read : readCodePoint position [first, second, third, fourth] =
          .ok _ := (readCodePoint_eq_ok_iff rfl).2 ⟨isCodePoint, rfl⟩
      rw [readFailed] at read
      cases read
  | case4 position written digits tooFew =>
      cases read : readCodePoint position digits with
      | ok char =>
          exact absurd read
            (not_readCodePoint_of_length_lt (length_lt_four tooFew))
      | error error =>
          refine .here (not_dangling_of_readCodePoint read)
            (not_prefix_of_not_isCodePoint fun others isPrefix
              isCodePoint => ?_)
            (isWithin_of_readCodePoint read)
          obtain ⟨_, _, _, _, rfl⟩ := isCodePoint.exists_eq
          obtain ⟨after, same⟩ := isPrefix
          exact tooFew _ _ _ _ after same.symm
  | case5 position written char rest notCodePoint _ named isNamed
      inductionHypothesis =>
      have names := mem_escapeNames_iff.2 isNamed
      refine .cons (.named char named names) ?_
        (inductionHypothesis opens.of_escaped)
      rw [BodyItem.text, utf8Length_cons, utf8Length_cons,
        utf8Size_of_namedEscape? isNamed]
      rfl
  | case6 position written char rest _ notCodePoint notNamed =>
      refine .here EscapeFault.noConfusion (fun item isPrefix => ?_)
        (EscapeError.isWithin_start _ _ _ _)
      obtain ⟨after, begins⟩ := isPrefix
      rcases BodyItem.cases_of_backslash begins with
        ⟨_, _, names, _, isRest⟩ | ⟨_, _, _, isRest⟩
      · cases isRest
        rw [mem_escapeNames_iff, notNamed] at names
        cases names
      · cases isRest
        exact notCodePoint rfl
  | case7 =>
      cases opens with
      | plain isPlain =>
          exact absurd rfl isPlain.2.1
  | case8 position written char rest _ _ notEscape notDangling
      inductionHypothesis =>
      have notBackslash : char ≠ '\\' := by
        intro isBackslash
        cases rest with
        | nil =>
            exact notDangling isBackslash rfl
        | cons next rest =>
            exact notEscape next rest isBackslash rfl
      have isPlain := isPlain_of_leavesOpen notBackslash opens
      exact .cons (.plain char isPlain) rfl
        (inductionHypothesis (opens.of_plain isPlain))

/-- The items of a body leave no escape sequence that is none. -/
theorem FirstFault.not_bodyText {others : List BodyItem}
    {faulty : List Char} :
    ∀ {items : List BodyItem}, ¬ FirstFault (bodyText items) others faulty := by
  induction others with
  | nil =>
      rintro items ⟨content_eq, notItem⟩
      cases items with
      | nil =>
          cases content_eq
      | cons item items =>
          exact notItem item ⟨bodyText items, content_eq⟩
  | cons other others inductionHypothesis =>
      rintro items ⟨content_eq, notItem⟩
      rw [bodyText_cons, List.append_assoc] at content_eq
      cases items with
      | nil =>
          have none := List.append_eq_nil_iff.1 content_eq.symm
          cases (List.append_eq_nil_iff.1 none.2).2
      | cons item items =>
          obtain ⟨rfl, sameRest⟩ := BodyItem.eq_of_text_append_eq content_eq
          exact inductionHypothesis ⟨sameRest, notItem⟩

theorem unescape_cases {content : List Char} (opens : LeavesOpen content) :
    (∃ items, content = bodyText items ∧
      unescape content = .ok (String.ofList (items.map BodyItem.value))) ∨
      ∃ error : EscapeError, error.ShowsFault 0 content ∧
        unescape content = .error error := by
  have unescapes := unescapesTo_unescapeFrom 0 [] opens
  rw [unescape_eq_map]
  generalize unescapeFrom 0 [] content = outcome at unescapes
  cases unescapes with
  | items content_eq =>
      exact .inl ⟨_, content_eq, rfl⟩
  | fault shows =>
      exact .inr ⟨_, shows, rfl⟩

theorem unescape_bodyText (items : List BodyItem) :
    unescape (bodyText items) =
      .ok (String.ofList (items.map BodyItem.value)) := by
  rcases unescape_cases (leavesOpen_bodyText items) with
    ⟨others, sameText, read⟩ | ⟨_, ⟨_, _, _, fault, _⟩, _⟩
  · have same : bodyText items ++ '"' :: [] = bodyText others ++ '"' :: [] := by
      rw [sameText]
    obtain ⟨rfl, _⟩ := eq_of_bodyText_append_eq same
    exact read
  · exact absurd fault FirstFault.not_bodyText

/-! ## Literals -/

namespace Cursor

variable {offset : Nat} {text content rest : List Char}

theorem string_of_not_closed
    (notClosed : ¬ ∃ content rest, LeavesOpen content ∧
      text = content ++ '"' :: rest) :
    Cursor.string ⟨offset, '"' :: text⟩ =
      .error (.written offset .unterminatedString) := by
  have peeks : (Cursor.mk offset ('"' :: text)).peek? = some '"' := rfl
  have inside : (Cursor.mk offset ('"' :: text)).skip =
      ⟨offset + 1, text⟩ := rfl
  have none : Cursor.content? ⟨offset + 1, text⟩ = none := by
    rw [Option.eq_none_iff_forall_ne_some]
    intro content isFound
    obtain ⟨opens, rest, restEq⟩ := content?_eq_some_iff.1 isFound
    exact notClosed ⟨content, rest, opens, restEq⟩
  rw [string, if_pos peeks, inside]
  simp only [none]
  rfl

/-- A literal that is closed is read as its content is. -/
theorem string_of_leavesOpen (opens : LeavesOpen content) :
    Cursor.string ⟨offset, '"' :: (content ++ '"' :: rest)⟩ =
      match unescape content with
      | .ok value =>
          .ok (value, ⟨offset + utf8Length ('"' :: content ++ ['"']), rest⟩)
      | .error error =>
          .error (.written (offset + 1 + error.position)
            (.escape error.fault)) := by
  have peeks : (Cursor.mk offset
      ('"' :: (content ++ '"' :: rest))).peek? = some '"' := rfl
  have inside : (Cursor.mk offset ('"' :: (content ++ '"' :: rest))).skip =
      ⟨offset + 1, content ++ '"' :: rest⟩ := rfl
  have found : Cursor.content? ⟨offset + 1, content ++ '"' :: rest⟩ =
      some content := content?_eq_some_iff.2 ⟨opens, rest, rfl⟩
  have after : ((Cursor.mk (offset + 1)
      (content ++ '"' :: rest)).advance content).skip =
        ⟨offset + utf8Length ('"' :: content ++ ['"']), rest⟩ := by
    have width : '"'.utf8Size = 1 := rfl
    simp [advance, skip, width]
    omega
  rw [string, if_pos peeks, inside]
  simp only [found, after]
  cases unescape content <;> rfl

theorem string_bodyText (items : List BodyItem) :
    Cursor.string ⟨offset, '"' :: (bodyText items ++ '"' :: rest)⟩ =
      .ok (String.ofList (items.map BodyItem.value),
        ⟨offset + utf8Length ('"' :: bodyText items ++ ['"']), rest⟩) := by
  rw [string_of_leavesOpen (leavesOpen_bodyText items), unescape_bodyText]

/-- A literal that is closed but has no body for its content is reported inside
the content. -/
theorem exists_fault_of_leavesOpen (opens : LeavesOpen content)
    (notBody : ¬ ∃ items, content = bodyText items) :
    ∃ items faulty before char after fault,
      FirstFault content items faulty ∧
        '\\' :: faulty = before ++ char :: after ∧
          fault ≠ EscapeFault.dangling ∧
            Cursor.string ⟨offset, '"' :: (content ++ '"' :: rest)⟩ =
              .error (.written
                (offset + utf8Length ('"' :: bodyText items ++ before))
                (.escape fault)) := by
  rcases unescape_cases opens with ⟨items, content_eq, _⟩ | ⟨error, shows, read⟩
  · exact absurd ⟨items, content_eq⟩ notBody
  · obtain ⟨notDangling, items, faulty, fault, before, char, after, faultyEq,
      position⟩ := shows
    refine ⟨items, faulty, before, char, after, error.fault, fault, faultyEq,
      notDangling, ?_⟩
    have place : offset + 1 + error.position =
        offset + utf8Length ('"' :: bodyText items ++ before) := by
      have width : '"'.utf8Size = 1 := rfl
      rw [position, List.cons_append, utf8Length_cons, utf8Length_append,
        width]
      omega
    rw [string_of_leavesOpen opens, read, ← place]

end Cursor

/-- After an opening quote, a body and a quote follow, nothing closes the
literal, or what is closed is no body. -/
theorem body_or_not_closed_or_fault (text : List Char) :
    (∃ items rest, text = bodyText items ++ '"' :: rest) ∨
      (¬ ∃ content rest, LeavesOpen content ∧
        text = content ++ '"' :: rest) ∨
      ∃ content rest, LeavesOpen content ∧ text = content ++ '"' :: rest ∧
        ¬ ∃ items, content = bodyText items := by
  by_cases closed : ∃ content rest, LeavesOpen content ∧
      text = content ++ '"' :: rest
  · obtain ⟨content, rest, opens, rfl⟩ := closed
    by_cases isBody : ∃ items, content = bodyText items
    · obtain ⟨items, rfl⟩ := isBody
      exact .inl ⟨items, rest, rfl⟩
    · exact .inr (.inr ⟨content, rest, opens, rfl, isBody⟩)
  · exact .inr (.inl closed)

/-- A literal stands exactly where items and a quote follow the opening quote,
which they do in one way; it ends there and its string is made of the characters
of the items. Otherwise the error is a fault of the written form: at the opening
quote, if nothing closes the literal, or else at a character between the first
escape sequence that is none and the closing quote, never for lack of a
character after a backslash. -/
theorem string_reads_bodies (offset : Nat) (text : List Char) :
    (∀ value next,
      Cursor.string ⟨offset, '"' :: text⟩ = .ok (value, next) ↔
        ∃ items, text = bodyText items ++ '"' :: next.rest ∧
          value = String.ofList (items.map BodyItem.value) ∧
            next.offset =
              offset + utf8Length ('"' :: bodyText items ++ ['"'])) ∧
      (∀ items others rest otherRest,
        text = bodyText items ++ '"' :: rest →
          text = bodyText others ++ '"' :: otherRest →
            items = others ∧ rest = otherRest) ∧
      ((¬ ∃ content rest, LeavesOpen content ∧
          text = content ++ '"' :: rest) →
        Cursor.string ⟨offset, '"' :: text⟩ =
          .error (.written offset .unterminatedString)) ∧
      (∀ content rest, LeavesOpen content → text = content ++ '"' :: rest →
        (¬ ∃ items, content = bodyText items) →
          ∃ items faulty before char after fault,
            content = bodyText items ++ '\\' :: faulty ∧
              (∀ item : BodyItem, ¬ item.text <+: '\\' :: faulty) ∧
                '\\' :: faulty = before ++ char :: after ∧
                  Cursor.string ⟨offset, '"' :: text⟩ =
                    .error (.written
                      (offset +
                        utf8Length ('"' :: bodyText items ++ before))
                      (.escape fault))) ∧
      ∀ place, Cursor.string ⟨offset, '"' :: text⟩ ≠
        .error (.written place (.escape .dangling)) := by
  refine ⟨fun value next => ⟨fun read => ?_, ?_⟩,
    fun items others rest otherRest isText isOther =>
      eq_of_bodyText_append_eq (isText.symm.trans isOther),
    Cursor.string_of_not_closed, ?_, fun place dangles => ?_⟩
  · rcases body_or_not_closed_or_fault text with
      ⟨items, rest, rfl⟩ | notClosed | ⟨content, rest, opens, rfl, notBody⟩
    · rw [Cursor.string_bodyText] at read
      cases read
      exact ⟨items, rfl, rfl, rfl⟩
    · rw [Cursor.string_of_not_closed notClosed] at read
      cases read
    · obtain ⟨_, _, _, _, _, _, _, _, _, failed⟩ :=
        Cursor.exists_fault_of_leavesOpen opens notBody
      rw [failed] at read
      cases read
  · rintro ⟨items, rfl, rfl, isNext⟩
    rw [Cursor.string_bodyText, ← isNext]
  · rintro content rest opens rfl notBody
    obtain ⟨items, faulty, before, char, after, fault, ⟨content_eq, notItem⟩,
      faultyEq, _, failed⟩ := Cursor.exists_fault_of_leavesOpen opens notBody
    exact ⟨items, faulty, before, char, after, fault, content_eq, notItem,
      faultyEq, failed⟩
  · rcases body_or_not_closed_or_fault text with
      ⟨items, rest, rfl⟩ | notClosed | ⟨content, rest, opens, rfl, notBody⟩
    · rw [Cursor.string_bodyText] at dangles
      cases dangles
    · rw [Cursor.string_of_not_closed notClosed] at dangles
      cases dangles
    · obtain ⟨_, _, _, _, _, _, _, _, notDangling, failed⟩ :=
        Cursor.exists_fault_of_leavesOpen opens notBody
      rw [failed] at dangles
      cases dangles
      exact notDangling rfl

/-- A literal whose last quote belongs to an escape sequence, and one whose code
point ends before its fourth digit. -/
theorem string_without_close_or_digits :
    (¬ ∃ content rest, LeavesOpen content ∧
        ['a', '\\', '"'] = content ++ '"' :: rest) ∧
      Cursor.string ⟨0, ['"', 'a', '\\', '"']⟩ =
        .error (.written 0 .unterminatedString) ∧
        LeavesOpen ['é', '\\', 'u', '1', '2'] ∧
          (¬ ∃ items, ['é', '\\', 'u', '1', '2'] = bodyText items) ∧
            ∃ place fault,
              Cursor.string ⟨0, ['"', 'é', '\\', 'u', '1', '2', '"']⟩ =
                .error (.written place (.escape fault)) := by
  have notClosed : ¬ ∃ content rest, LeavesOpen content ∧
      ['a', '\\', '"'] = content ++ '"' :: rest := by
    rintro ⟨content, rest, opens, isText⟩
    have found := Cursor.contentFrom?_of_leavesOpen opens [] rest
    rw [← isText] at found
    cases found
  have plain {char : Char} (distinct : char ∉ ['"', '\\', '\n']) :
      IsPlain char := by
    simpa [IsPlain] using distinct
  have opens : LeavesOpen ['é', '\\', 'u', '1', '2'] :=
    .plain (plain (by decide)) (.escaped 'u'
      (.plain (plain (by decide)) (.plain (plain (by decide)) .nil)))
  have notBody : ¬ ∃ items, ['é', '\\', 'u', '1', '2'] = bodyText items := by
    rintro ⟨items, isBody⟩
    have read := unescape_bodyText items
    rw [← isBody] at read
    cases read
  obtain ⟨_, _, _, within, _⟩ :=
    string_reads_bodies 0 ['é', '\\', 'u', '1', '2', '"']
  obtain ⟨_, _, _, _, _, fault, _, _, _, failed⟩ :=
    within ['é', '\\', 'u', '1', '2'] [] opens rfl notBody
  exact ⟨notClosed, (string_reads_bodies 0 ['a', '\\', '"']).2.2.1 notClosed,
    opens, notBody, _, fault, failed⟩

end Formula
