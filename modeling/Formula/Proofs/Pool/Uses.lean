import Mathlib.Data.List.Forall2
import Mathlib.Data.List.Induction
import Formula.Proofs.Pool

/-!
# Uses of a pool

What a pool holds after a list of uses: each entry once, in the order of first
use, and each use finds its entry at the address that it was given. Inserting
fails only where the pool would have to hold too many entries.
-/

namespace Formula

/-! ## Lists -/

section FirstOccurrences

variable {α β : Type} [BEq α] [LawfulBEq α] [BEq β] [LawfulBEq β]

theorem eraseDups_concat_of_mem {items : List α} {item : α}
    (known : item ∈ items) : (items ++ [item]).eraseDups = items.eraseDups := by
  simp [List.eraseDups_append, List.removeAll, known]

theorem eraseDups_concat_of_notMem {items : List α} {item : α}
    (isNew : item ∉ items) :
    (items ++ [item]).eraseDups = items.eraseDups ++ [item] := by
  simp [List.eraseDups_append, List.eraseDups_cons, List.removeAll, isNew]

theorem length_eraseDups_le_append (items more : List α) :
    items.eraseDups.length ≤ (items ++ more).eraseDups.length := by
  simp [List.eraseDups_append]

/-- A function that tells the items of a list apart keeps their first
occurrences. -/
theorem eraseDups_map {items : List α} {image : α → β}
    (tellsApart : ∀ item ∈ items, ∀ other ∈ items,
      image item = image other → item = other) :
    (items.map image).eraseDups = items.eraseDups.map image := by
  induction items using List.reverseRecOn with
  | nil =>
      rfl
  | append_singleton items last inductionHypothesis =>
      have before := inductionHypothesis fun item mem other memOther =>
        tellsApart item (List.mem_append_left _ mem) other
          (List.mem_append_left _ memOther)
      rw [List.map_append, List.map_singleton]
      by_cases known : last ∈ items
      · rw [eraseDups_concat_of_mem known,
          eraseDups_concat_of_mem (List.mem_map_of_mem known), before]
      · have isNew : image last ∉ items.map image := by
          intro mem
          obtain ⟨item, itemMem, same⟩ := List.mem_map.1 mem
          obtain rfl := tellsApart item (List.mem_append_left _ itemMem) last
            (by simp) same
          exact known itemMem
        rw [eraseDups_concat_of_notMem known,
          eraseDups_concat_of_notMem isNew, before]
        simp

end FirstOccurrences

theorem exists_of_forall₂ {α β : Type} {relation : α → β → Prop}
    {left : List α} {right : List β}
    (related : List.Forall₂ relation left right) {item : β}
    (mem : item ∈ right) : ∃ other ∈ left, relation other item := by
  induction related with
  | nil =>
      cases mem
  | cons head _ inductionHypothesis =>
      rcases List.mem_cons.1 mem with rfl | later
      · exact ⟨_, List.mem_cons_self, head⟩
      · obtain ⟨other, otherMem, holds⟩ := inductionHypothesis later
        exact ⟨other, List.mem_cons_of_mem _ otherMem, holds⟩

/-! ## Pools -/

/-- Entries that serve uses: each stands once, in the order of first use, is
found by its uses at their addresses, and has a use. -/
structure ServeExactly {α : Type} [BEq α] (entries : Array α) (uses : List α)
    (addresses : List Address) : Prop where
  inOrder : entries.toList = uses.eraseDups
  differ : entries.toList.Nodup
  found :
    List.Forall₂ (fun (address : Address) use =>
      entries[address.val]? = some use) addresses uses
  used : ∀ index < entries.size, ∃ address ∈ addresses, address.val = index

namespace Pool

variable {α : Type} [BEq α] [Hashable α] {pool : Pool α}

/-- A pool holds what was used, in the order of first use, and gave an address
to each use where the used entry stands. -/
structure Serves (pool : Pool α) (uses : List α) (addresses : List Address) :
    Prop where
  consistent : pool.Consistent
  fits : pool.entries.size ≤ 65536
  entries : pool.entries.toList = uses.eraseDups
  served :
    List.Forall₂ (fun (address : Address) use =>
      pool.entries[address.val]? = some use) addresses uses

variable {uses : List α} {addresses : List Address}

theorem Consistent.address_unique (consistent : pool.Consistent) {entry : α}
    (address other : Address)
    (found : pool.entries[address.val]? = some entry)
    (foundOther : pool.entries[other.val]? = some entry) : address = other :=
  Option.some.inj <| ((consistent entry address).2 found).symm.trans
    ((consistent entry other).2 foundOther)

theorem Serves.nodup (serves : pool.Serves uses addresses) :
    pool.entries.toList.Nodup := by
  have fits := serves.fits
  refine List.pairwise_iff_getElem.2
    fun first second firstInside secondInside before same => ?_
  rw [Array.length_toList] at firstInside secondInside
  have addressEq := serves.consistent.address_unique
    ⟨first, by omega⟩ ⟨second, by omega⟩
    (Array.getElem?_eq_getElem firstInside)
    ((Array.getElem?_eq_getElem secondInside).trans
      (congrArg some same.symm))
  exact Nat.ne_of_lt before (congrArg Fin.val addressEq)

theorem Serves.length_le (serves : pool.Serves uses addresses) :
    uses.eraseDups.length ≤ 65536 := by
  rw [← serves.entries]
  exact serves.fits

section Lawful

variable [LawfulBEq α]

theorem serves_empty : (empty : Pool α).Serves [] [] :=
  ⟨consistent_empty, Nat.zero_le _, rfl, .nil⟩

/-- A pool serves a further use, unless it would have to hold too many
entries. -/
theorem Serves.insert (serves : pool.Serves uses addresses) (entry : α) :
    (∃ address next, pool.insert entry = .ok (address, next) ∧
        next.Serves (uses ++ [entry]) (addresses ++ [address])) ∨
      pool.insert entry = .error .tooManyConstants ∧
        65536 < (uses ++ [entry]).eraseDups.length := by
  have memIff (item : α) : item ∈ pool.entries.toList ↔ item ∈ uses := by
    rw [serves.entries, List.mem_eraseDups]
  have goesOn {address : Address} {next : Pool α}
      (inserted : pool.insert entry = .ok (address, next))
      (fits : next.entries.size ≤ 65536)
      (entries : next.entries.toList = (uses ++ [entry]).eraseDups) :
      next.Serves (uses ++ [entry]) (addresses ++ [address]) := by
    obtain ⟨consistent, within, found⟩ :=
      insert_eq_ok serves.consistent inserted
    refine ⟨consistent, fits, entries, List.rel_append ?_ (.cons found .nil)⟩
    exact serves.served.imp fun address use stands => within _ _ stands
  obtain ⟨entries, positions⟩ := pool
  cases found : positions[entry]? with
  | some address =>
      have inserted : Pool.insert ⟨entries, positions⟩ entry =
          .ok (address, ⟨entries, positions⟩) := by
        simp only [insert, found]
      have stands := (serves.consistent entry address).1 found
      have known : entry ∈ uses :=
        (memIff entry).1 (Array.mem_toList_iff.2 (Array.mem_of_getElem? stands))
      refine .inl ⟨address, _, inserted, goesOn inserted serves.fits ?_⟩
      rw [eraseDups_concat_of_mem known, ← serves.entries]
  | none =>
      have isNew : entry ∉ uses := by
        intro mem
        obtain ⟨index, inside, stands⟩ := Array.mem_iff_getElem.1
          (Array.mem_toList_iff.1 ((memIff entry).2 mem))
        have known := (serves.consistent entry
          ⟨index, Nat.lt_of_lt_of_le inside serves.fits⟩).2
            (Array.getElem?_eq_some_iff.2 ⟨inside, stands⟩)
        cases found.symm.trans known
      have grown : (uses ++ [entry]).eraseDups = entries.toList ++ [entry] := by
        rw [eraseDups_concat_of_notMem isNew, ← serves.entries]
      by_cases room : entries.size < 65536
      · have inserted : Pool.insert ⟨entries, positions⟩ entry =
            .ok (⟨entries.size, room⟩, ⟨entries.push entry,
              positions.insert entry ⟨entries.size, room⟩⟩) := by
          simp only [insert, found, dif_pos room]
        refine .inl ⟨_, _, inserted, goesOn inserted ?_ ?_⟩
        · rw [Array.size_push]
          exact room
        · rw [grown, Array.toList_push]
      · refine .inr ⟨by simp only [insert, found, dif_neg room], ?_⟩
        rw [grown, List.length_append, Array.length_toList]
        exact Nat.lt_succ_of_le (Nat.le_of_not_lt room)

/-- Every entry of a pool was given to some use. -/
theorem Serves.exists_address (serves : pool.Serves uses addresses)
    {index : Nat} (inside : index < pool.entries.size) :
    ∃ address ∈ addresses, address.val = index := by
  have stands : pool.entries[index]? = some pool.entries[index] :=
    Array.getElem?_eq_getElem inside
  have used : pool.entries[index] ∈ uses := by
    rw [← List.mem_eraseDups, ← serves.entries, Array.mem_toList_iff]
    exact Array.getElem_mem inside
  obtain ⟨address, given, found⟩ := exists_of_forall₂ serves.served used
  have addressEq := serves.consistent.address_unique address
    ⟨index, Nat.lt_of_lt_of_le inside serves.fits⟩ found stands
  exact ⟨address, given, congrArg Fin.val addressEq⟩

theorem Serves.serveExactly (serves : pool.Serves uses addresses) :
    ServeExactly pool.entries uses addresses where
  inOrder := serves.entries
  differ := serves.nodup
  found := serves.served
  used := fun _ inside => serves.exists_address inside

end Lawful

end Pool

end Formula
