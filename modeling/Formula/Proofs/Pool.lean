import Formula.Pool

/-!
# Pools

A pool knows the position of each of its entries, and keeps the entries that it
has when it grows.
-/

namespace Formula.Pool

variable {α : Type} [BEq α] [Hashable α]

/-- The positions are those of the entries. -/
def Consistent (pool : Pool α) : Prop :=
  ∀ (entry : α) (position : Address),
    pool.positions[entry]? = some position ↔
      pool.entries[position.val]? = some entry

/-- The entries of a pool stand at the same positions in another one. -/
def Within (pool other : Pool α) : Prop :=
  ∀ (position : Nat) (entry : α),
    pool.entries[position]? = some entry →
      other.entries[position]? = some entry

theorem Within.refl (pool : Pool α) : pool.Within pool :=
  fun _ _ found => found

theorem Within.trans {first second third : Pool α}
    (before : first.Within second) (after : second.Within third) :
    first.Within third :=
  fun position entry found => after position entry (before position entry found)

theorem consistent_empty [LawfulBEq α] : (empty : Pool α).Consistent := by
  intro entry position
  simp [empty]

/-- A position is that of the inserted entry, and the pool only grows. -/
theorem insert_eq_ok [LawfulBEq α] {pool next : Pool α} {entry : α}
    {position : Address} (consistent : pool.Consistent)
    (inserted : pool.insert entry = .ok (position, next)) :
    next.Consistent ∧ pool.Within next ∧
      next.entries[position.val]? = some entry := by
  obtain ⟨entries, positions⟩ := pool
  cases found : positions[entry]? with
  | some known =>
      simp only [insert, found] at inserted
      cases inserted
      exact ⟨consistent, .refl _, (consistent _ _).1 found⟩
  | none =>
      simp only [insert, found] at inserted
      split at inserted
      · cases inserted
        refine ⟨fun other place => ?_, fun place other known => ?_, by simp⟩
        · have known := consistent other place
          simp only [Std.HashMap.getElem?_insert, Array.getElem?_push]
            at known ⊢
          by_cases same : entry = other
          · subst same
            have unknown : entries[place.val]? ≠ some entry := by
              intro stands
              have stood := (consistent entry place).2 stands
              rw [found] at stood
              cases stood
            by_cases last : place.val = entries.size
            · simp [last, Fin.ext_iff]
            · simp [last, unknown, Fin.ext_iff, Ne.symm last]
          · by_cases last : place.val = entries.size
            · have outside : entries[place.val]? = none := by
                simp [last]
              rw [outside] at known
              simp [same, last, known]
            · simp [same, last, known]
        · have inside : place < entries.size := by
            obtain ⟨inside, _⟩ := Array.getElem?_eq_some_iff.1 known
            exact inside
          simp only [Array.getElem?_push]
          rw [if_neg (by omega)]
          exact known
      · cases inserted

end Formula.Pool
