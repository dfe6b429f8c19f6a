import Formula.Source.Cursor

/-!
String literals in a source.
-/

namespace Formula.Cursor

/-- The content of a literal up to the quote that closes it, `read` holding the
characters before in reverse. A backslash keeps the next character from closing
the literal; the end of the line leaves it open. -/
def contentFrom? (read : List Char) : List Char → Option (List Char)
  | [] => none
  | '\\' :: char :: rest => contentFrom? (char :: '\\' :: read) rest
  | char :: rest =>
      if char = '"' then some read.reverse
      else if char = '\n' then none
      else contentFrom? (char :: read) rest

def content? (cursor : Cursor) : Option (List Char) :=
  contentFrom? [] cursor.rest

def string (cursor : Cursor) : Except Error (String × Cursor) :=
  if cursor.peek? = some '"' then
    let inside := cursor.skip
    match inside.content? with
    | none => .error (cursor.error .unterminatedString)
    | some content =>
        match unescape content with
        | .ok text => .ok (text, (inside.advance content).skip)
        | .error ⟨position, fault⟩ =>
            .error (.written (inside.offset + position) (.escape fault))
  else .error (cursor.unexpected "a string literal")

/-! ## Progress -/

theorem exists_of_contentFrom? {read text content : List Char}
    (found : contentFrom? read text = some content) :
    ∃ inner rest, content = read.reverse ++ inner ∧
      text = inner ++ '"' :: rest := by
  fun_induction contentFrom? read text with
  | case1 => cases found
  | case2 read char rest inductionHypothesis =>
      obtain ⟨inner, after, contentEq, restEq⟩ := inductionHypothesis found
      exact ⟨'\\' :: char :: inner, after, by simp [contentEq],
        by simp [restEq]⟩
  | case3 read rest _ =>
      cases found
      exact ⟨[], rest, by simp, rfl⟩
  | case4 => cases found
  | case5 read char rest _ _ _ inductionHypothesis =>
      obtain ⟨inner, after, contentEq, restEq⟩ := inductionHypothesis found
      exact ⟨char :: inner, after, by simp [contentEq], by simp [restEq]⟩

theorem reaches_string {cursor next : Cursor} {text : String}
    (read : cursor.string = .ok (text, next)) :
    cursor.Reaches next ∧ next.rest.length < cursor.rest.length := by
  unfold string at read
  split at read
  · rename_i opened
    dsimp only at read
    split at read
    · cases read
    · rename_i content found
      obtain ⟨inner, rest, contentEq, restEq⟩ := exists_of_contentFrom? found
      split at read
      · cases read
        have follows : cursor.rest ≠ [] := by
          intro empty
          simp [peek?, empty] at opened
        have inside : content <+: cursor.skip.rest :=
          ⟨'"' :: rest, by simp [contentEq, restEq]⟩
        have toClose :=
          (reaches_advance inside).trans (reaches_skip _)
        exact ⟨(reaches_skip cursor).trans toClose,
          Nat.lt_of_le_of_lt toClose.length_le (length_skip_lt follows)⟩
      · cases read
  · cases read

end Formula.Cursor
