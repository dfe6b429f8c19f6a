/-!
Finite maps. A later entry for a key replaces the earlier one.
-/

namespace Formula

structure Dictionary (κ α : Type) where
  entries : List (κ × α)

namespace Dictionary

variable {κ α : Type}

def empty : Dictionary κ α := ⟨[]⟩

def size (dictionary : Dictionary κ α) : Nat :=
  dictionary.entries.length

def isEmpty (dictionary : Dictionary κ α) : Bool :=
  dictionary.entries.isEmpty

variable [DecidableEq κ]

def get? (dictionary : Dictionary κ α) (key : κ) : Option α :=
  dictionary.entries.lookup key

def erase (dictionary : Dictionary κ α) (key : κ) : Dictionary κ α :=
  ⟨dictionary.entries.filter fun entry => entry.1 != key⟩

def insert (dictionary : Dictionary κ α) (key : κ) (value : α) :
    Dictionary κ α :=
  ⟨(key, value) :: (dictionary.erase key).entries⟩

def ofList (entries : List (κ × α)) : Dictionary κ α :=
  entries.foldl (fun dictionary entry => dictionary.insert entry.1 entry.2)
    empty

@[simp] theorem get?_empty (key : κ) :
    (empty : Dictionary κ α).get? key = none := rfl

theorem get?_erase (dictionary : Dictionary κ α) (erased key : κ) :
    (dictionary.erase erased).get? key =
      if key = erased then none else dictionary.get? key := by
  obtain ⟨entries⟩ := dictionary
  induction entries with
  | nil => simp [erase, get?]
  | cons entry rest inductionHypothesis =>
      obtain ⟨first, value⟩ := entry
      simp only [erase, get?] at inductionHypothesis ⊢
      by_cases isErased : first = erased
      · rw [List.filter_cons_of_neg (by simp [isErased]), inductionHypothesis]
        by_cases isKey : key = erased
        · simp [isKey]
        · have differs : (key == first) = false := by simp [isErased, isKey]
          simp [List.lookup_cons, isKey, differs]
      · rw [List.filter_cons_of_pos (by simp [isErased])]
        by_cases isKey : key = first
        · simp [isKey, isErased]
        · have differs : (key == first) = false := by simp [isKey]
          simp [List.lookup_cons, differs, inductionHypothesis]

theorem get?_insert (dictionary : Dictionary κ α) (inserted key : κ)
    (value : α) :
    (dictionary.insert inserted value).get? key =
      if key = inserted then some value else dictionary.get? key := by
  by_cases isInserted : key = inserted
  · simp [insert, get?, isInserted]
  · have differs : (key == inserted) = false := by simp [isInserted]
    have erased := get?_erase dictionary inserted key
    simp only [get?, if_neg isInserted] at erased
    simp [insert, get?, List.lookup_cons, differs, isInserted, erased]

/-- A map is empty exactly if no key has a value in it. -/
theorem isEmpty_iff (dictionary : Dictionary κ α) :
    dictionary.isEmpty ↔ ∀ key, dictionary.get? key = none := by
  obtain ⟨entries⟩ := dictionary
  cases entries with
  | nil => simp [isEmpty, get?]
  | cons entry rest =>
      obtain ⟨first, value⟩ := entry
      simp only [isEmpty, List.isEmpty_cons, Bool.false_eq_true, false_iff]
      intro absent
      have found := absent first
      simp [get?] at found

end Dictionary

end Formula
