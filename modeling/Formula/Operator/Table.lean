import Formula.Dictionary
import Formula.Operator

/-!
Tables from operator texts to values. Operators are grouped by the first
character of their texts, and a group that has lost its last operator is
dropped, so that a character begins an operator exactly if it has a group. A
table never holds the empty text, for no operator could begin with it.
-/

namespace Formula

/-- The operators of a group begin with its character, and there is one. -/
structure Dictionary.IsGroup {α : Type} (group : Dictionary String α)
    (first : Char) : Prop where
  filled : ¬ group.isEmpty
  begins : ∀ text value,
    group.get? text = some value → text.toList.head? = some first

/-- A finite map from operator texts to values, in groups of one first
character each. -/
structure OperatorTable (α : Type) where
  groups : Dictionary Char (Dictionary String α)
  grouped : ∀ first group, groups.get? first = some group → group.IsGroup first

namespace OperatorTable

variable {α : Type}

def empty : OperatorTable α where
  groups := .empty
  grouped _ _ found := nomatch found

def setGroup (table : OperatorTable α) (first : Char)
    (group : Dictionary String α) (isGroup : group.IsGroup first) :
    OperatorTable α where
  groups := table.groups.insert first group
  grouped char other found := by
    rw [Dictionary.get?_insert] at found
    split at found
    · rename_i same
      cases found
      exact same ▸ isGroup
    · exact table.grouped char other found

def dropGroup (table : OperatorTable α) (first : Char) : OperatorTable α where
  groups := table.groups.erase first
  grouped char other found := by
    rw [Dictionary.get?_erase] at found
    split at found
    · cases found
    · exact table.grouped char other found

def group (table : OperatorTable α) (first : Char) : Dictionary String α :=
  (table.groups.get? first).getD .empty

theorem begins_of_group (table : OperatorTable α) {first : Char}
    {text : String} {value : α}
    (found : (table.group first).get? text = some value) :
    text.toList.head? = some first := by
  unfold group at found
  cases isGroup : table.groups.get? first with
  | none =>
      rw [isGroup] at found
      cases found
  | some group =>
      rw [isGroup] at found
      exact (table.grouped first group isGroup).begins text value found

/-- A group goes on with one more operator that begins like it. -/
theorem isGroup_insert (table : OperatorTable α) {first : Char}
    {text : String} (begins : text.toList.head? = some first) (value : α) :
    ((table.group first).insert text value).IsGroup first where
  filled := by simp [Dictionary.isEmpty, Dictionary.insert]
  begins other held found := by
    rw [Dictionary.get?_insert] at found
    split at found
    · rename_i same
      exact same ▸ begins
    · exact table.begins_of_group found

/-- A group goes on without an operator unless it was the last one. -/
theorem isGroup_erase (table : OperatorTable α) {first : Char} {text : String}
    (filled : ¬ ((table.group first).erase text).isEmpty) :
    ((table.group first).erase text).IsGroup first where
  filled := filled
  begins other held found := by
    rw [Dictionary.get?_erase] at found
    split at found
    · cases found
    · exact table.begins_of_group found

/-- The value registered under exactly this text. -/
def get? (table : OperatorTable α) (text : String) : Option α := do
  let first ← text.toList.head?
  (table.group first).get? text

/-- Registers a text, replacing its earlier value. The empty text is
ignored. -/
def insert (table : OperatorTable α) (text : String) (value : α) :
    OperatorTable α :=
  match begins : text.toList.head? with
  | none => table
  | some first =>
      table.setGroup first _ (table.isGroup_insert begins value)

/-- Removes a text, and tells the value that it was registered with. -/
def remove (table : OperatorTable α) (text : String) :
    Option α × OperatorTable α :=
  match text.toList.head? with
  | none => (none, table)
  | some first =>
      let removed := (table.group first).get? text
      if filled : ¬ ((table.group first).erase text).isEmpty then
        (removed, table.setGroup first _ (table.isGroup_erase filled))
      else (removed, table.dropGroup first)

def erase (table : OperatorTable α) (text : String) : OperatorTable α :=
  (table.remove text).2

/-- The table of a list of entries, later entries replacing earlier ones. -/
def ofList (entries : List (String × α)) : OperatorTable α :=
  entries.foldl (fun table entry => table.insert entry.1 entry.2) empty

def binary : OperatorTable BinaryOperator :=
  ofList (BinaryOperator.all.map fun operator => (operator.symbol, operator))

def unary : OperatorTable UnaryOperator :=
  ofList (UnaryOperator.all.map fun operator => (operator.symbol, operator))

/-! ## Look-up -/

@[simp] theorem get?_empty (text : String) :
    (empty : OperatorTable α).get? text = none := by
  unfold get?
  cases text.toList.head? <;> rfl

theorem get?_of_head? (table : OperatorTable α) {text : String} {first : Char}
    (begins : text.toList.head? = some first) :
    table.get? text = (table.group first).get? text := by
  rw [get?, begins]
  rfl

theorem get?_of_head?_eq_none (table : OperatorTable α) {text : String}
    (isEmpty : text.toList.head? = none) : table.get? text = none := by
  rw [get?, isEmpty]
  rfl

theorem head?_eq_none_iff {text : String} :
    text.toList.head? = none ↔ text = "" := by
  rw [List.head?_eq_none_iff, String.toList_eq_nil_iff]

theorem group_setGroup (table : OperatorTable α) (first char : Char)
    (group : Dictionary String α) (isGroup : group.IsGroup first) :
    (table.setGroup first group isGroup).group char =
      if char = first then group else table.group char := by
  unfold OperatorTable.group setGroup
  rw [Dictionary.get?_insert]
  split <;> rfl

theorem group_dropGroup (table : OperatorTable α) (first char : Char) :
    (table.dropGroup first).group char =
      if char = first then .empty else table.group char := by
  unfold OperatorTable.group dropGroup
  rw [Dictionary.get?_erase]
  split <;> rfl

/-- A character begins an operator exactly if it has a group. -/
theorem isSome_group_iff (table : OperatorTable α) (first : Char) :
    (table.groups.get? first).isSome ↔
      ∃ text value, (table.group first).get? text = some value := by
  unfold group
  cases found : table.groups.get? first with
  | none => simp
  | some group =>
      have filled := (table.grouped first group found).filled
      rw [Dictionary.isEmpty_iff] at filled
      simpa [Option.ne_none_iff_exists'] using filled

/-- The text that is registered last counts, unless it is empty. -/
theorem get?_insert (table : OperatorTable α) (inserted text : String)
    (value : α) :
    (table.insert inserted value).get? text =
      if text = inserted ∧ inserted ≠ "" then some value
      else table.get? text := by
  unfold insert
  split
  · rename_i isEmpty
    have ignored : ¬ (text = inserted ∧ inserted ≠ "") := fun registered =>
      registered.2 (head?_eq_none_iff.1 isEmpty)
    rw [if_neg ignored]
  · rename_i first begins
    have nonempty : inserted ≠ "" := by
      intro isEmpty
      rw [head?_eq_none_iff.2 isEmpty] at begins
      cases begins
    by_cases same : text = inserted
    · subst same
      rw [get?_of_head? _ begins, group_setGroup, if_pos rfl,
        Dictionary.get?_insert, if_pos rfl, if_pos ⟨rfl, nonempty⟩]
    · rw [if_neg fun registered => same registered.1]
      cases head : text.toList.head? with
      | none =>
          rw [get?_of_head?_eq_none _ head, get?_of_head?_eq_none _ head]
      | some char =>
          rw [get?_of_head? _ head, get?_of_head? _ head, group_setGroup]
          split
          · rename_i sameGroup
            rw [Dictionary.get?_insert, if_neg same, sameGroup]
          · rfl

theorem remove_fst (table : OperatorTable α) (text : String) :
    (table.remove text).1 = table.get? text := by
  unfold remove
  split
  · rename_i isEmpty
    exact (table.get?_of_head?_eq_none isEmpty).symm
  · rename_i first begins
    rw [table.get?_of_head? begins]
    dsimp only
    split <;> rfl

/-- The group that a removal leaves, or drops with its last operator. -/
theorem group_erase (table : OperatorTable α) {erased : String} {first : Char}
    (begins : erased.toList.head? = some first) (char : Char)
    (text : String) :
    ((table.erase erased).group char).get? text =
      if char = first then ((table.group first).erase erased).get? text
      else (table.group char).get? text := by
  unfold erase remove
  rw [begins]
  dsimp only
  by_cases filled : ((table.group first).erase erased).isEmpty
  · rw [dif_neg (not_not_intro filled), group_dropGroup]
    split
    · exact ((Dictionary.isEmpty_iff _).1 filled text).symm
    · rfl
  · rw [dif_pos filled, group_setGroup]
    split <;> rfl

theorem get?_erase (table : OperatorTable α) (erased text : String) :
    (table.erase erased).get? text =
      if text = erased then none else table.get? text := by
  cases begins : erased.toList.head? with
  | none =>
      have unchanged : table.erase erased = table := by
        simp [erase, remove, begins]
      rw [unchanged]
      split
      · rename_i same
        exact table.get?_of_head?_eq_none (same ▸ begins)
      · rfl
  | some first =>
      cases head : text.toList.head? with
      | none =>
          rw [get?_of_head?_eq_none _ head, get?_of_head?_eq_none _ head,
            ite_self]
      | some char =>
          rw [get?_of_head? _ head, get?_of_head? _ head,
            table.group_erase begins, Dictionary.get?_erase]
          by_cases sameGroup : char = first
          · rw [if_pos sameGroup, sameGroup]
          · have differs : text ≠ erased := by
              rintro rfl
              rw [head] at begins
              exact sameGroup (Option.some.inj begins)
            rw [if_neg sameGroup, if_neg differs]

end OperatorTable

end Formula
