import Formula.LocalMap
import Mathlib.Data.List.Pairwise
import Mathlib.Order.Interval.Finset.Nat

/-!
# Slots of local variables

A map of local variables counts the slots up to the end of the variable that
ends last, replaced variables included. A declaration takes the slots after
those, or fails and leaves the map, so that it meets no variable registered
before it, at whatever slot that one was put. A variable of two slots may be put
at the last address; nothing else gives a variable a slot without an address.
-/

namespace Formula

/-! ## Ranges of slots -/

namespace Local

def slots (held : Local) : Finset Nat :=
  Finset.Ico held.slot.val held.bound

theorem disjoint_slots {earlier later : Local}
    (follows : earlier.bound ≤ later.slot.val) :
    Disjoint later.slots earlier.slots := by
  apply Finset.disjoint_left.2
  intro slot isLater isEarlier
  have fromLater := (Finset.mem_Ico.1 isLater).1
  have beforeBound := (Finset.mem_Ico.1 isEarlier).2
  omega

theorem slots_subset_range {held : Local} {limit : Nat}
    (bounded : held.bound ≤ limit) : held.slots ⊆ Finset.range limit := by
  intro slot isSlot
  have beforeBound := (Finset.mem_Ico.1 isSlot).2
  exact Finset.mem_range.2 (Nat.lt_of_lt_of_le beforeBound bounded)

end Local

/-! ## Declarations -/

namespace Address

theorem ofNat?_of_lt {number : Nat} (isAddress : number < 65536) :
    ofNat? number = some ⟨number, isAddress⟩ :=
  dif_pos isAddress

theorem ofNat?_of_le {number : Nat} (isBeyond : 65536 ≤ number) :
    ofNat? number = none :=
  dif_neg (Nat.not_lt.2 isBeyond)

end Address

namespace LocalMap

theorem declare_of_fits {map : LocalMap} {type : StaticType}
    (fits : map.slotsUsed + type.slotWidth ≤ 65536) (name : String) :
    ∃ slot : Address, slot.val = map.slotsUsed ∧
      map.declare name type = (.ok slot, map.insert name slot type) := by
  have isAddress : map.slotsUsed < 65536 := by
    have width := type.slotWidth_pos
    omega
  refine ⟨⟨map.slotsUsed, isAddress⟩, rfl, ?_⟩
  rw [declare, Address.ofNat?_of_lt isAddress]
  exact if_neg (Nat.not_lt.2 fits)

/-- Where there is no slot or where the second slot has no address, the map is
left as it was. -/
theorem declare_of_not_fits {map : LocalMap} {type : StaticType}
    (notFits : ¬ map.slotsUsed + type.slotWidth ≤ 65536) (name : String) :
    map.declare name type = (.error .tooManyLocals, map) := by
  rw [declare]
  rcases Nat.lt_or_ge map.slotsUsed 65536 with isAddress | isBeyond
  · rw [Address.ofNat?_of_lt isAddress]
    exact if_pos (Nat.not_le.1 notFits)
  · rw [Address.ofNat?_of_le isBeyond]

theorem declare_eq_error_iff (map : LocalMap) (name : String)
    (type : StaticType) :
    (map.declare name type).1 = .error .tooManyLocals ↔
      65536 < map.slotsUsed + type.slotWidth := by
  by_cases fits : map.slotsUsed + type.slotWidth ≤ 65536
  · obtain ⟨slot, _, declared⟩ := declare_of_fits fits name
    rw [declared]
    exact iff_of_false nofun (Nat.not_lt.2 fits)
  · rw [declare_of_not_fits fits]
    exact iff_of_true rfl (Nat.not_le.1 fits)

end LocalMap

/-! ## Histories -/

/-- A call that registers a local variable: at a slot, or at the next free
one. -/
inductive LocalCall
  | insert (name : String) (slot : Address) (type : StaticType)
  | declare (name : String) (type : StaticType)

def LocalCall.isDeclaration : LocalCall → Bool
  | .insert _ _ _ => false
  | .declare _ _ => true

/-- A map, and all variables that were ever registered in it, latest first. -/
structure LocalHistory where
  map : LocalMap
  registered : List (String × Local)

namespace LocalHistory

def empty : LocalHistory := ⟨.empty, []⟩

def register (history : LocalHistory) (name : String) (slot : Address)
    (type : StaticType) : LocalHistory :=
  ⟨history.map.insert name slot type,
    (name, ⟨slot, type⟩) :: history.registered⟩

/-- What a call leaves. A declaration registers a variable at the slot that it
gives, if it gives one. -/
def step (history : LocalHistory) : LocalCall → LocalHistory
  | .insert name slot type => history.register name slot type
  | .declare name type =>
      match history.map.declare name type with
      | (.ok slot, map) =>
          ⟨map, (name, ⟨slot, type⟩) :: history.registered⟩
      | (.error _, map) => ⟨map, history.registered⟩

/-- The end of the variable that ends last. -/
def greatestBound (history : LocalHistory) : Nat :=
  (history.registered.map fun entry => entry.2.bound).foldr max 0

theorem bound_le_greatestBound {history : LocalHistory}
    {entry : String × Local} (isRegistered : entry ∈ history.registered) :
    entry.2.bound ≤ history.greatestBound := by
  obtain ⟨map, registered⟩ := history
  simp only [greatestBound] at *
  induction registered with
  | nil =>
      cases isRegistered
  | cons first rest inductionHypothesis =>
      rw [List.map_cons, List.foldr_cons]
      rcases List.mem_cons.1 isRegistered with rfl | isLater
      · exact Nat.le_max_left _ _
      · exact Nat.le_trans (inductionHypothesis isLater) (Nat.le_max_right _ _)

def latest (history : LocalHistory) (name : String) : Except Error Local :=
  match history.registered.lookup name with
  | some held => .ok held
  | none => .error (.unknownReference name)

theorem mem_registered_of_latest {history : LocalHistory} {name : String}
    {held : Local} (found : history.latest name = .ok held) :
    (name, held) ∈ history.registered := by
  unfold latest at found
  split at found
  · rename_i other isLatest
    cases found
    obtain ⟨before, after, isSplit, _⟩ := List.lookup_eq_some_iff.1 isLatest
    rw [isSplit]
    exact List.mem_append_right before List.mem_cons_self
  · cases found

theorem step_declare_of_fits {history : LocalHistory} {type : StaticType}
    (fits : history.map.slotsUsed + type.slotWidth ≤ 65536) (name : String) :
    ∃ slot : Address, slot.val = history.map.slotsUsed ∧
      history.step (.declare name type) = history.register name slot type := by
  obtain ⟨slot, isNext, declared⟩ := LocalMap.declare_of_fits fits name
  refine ⟨slot, isNext, ?_⟩
  rw [step, declared]
  rfl

theorem step_declare_of_not_fits {history : LocalHistory} {type : StaticType}
    (notFits : ¬ history.map.slotsUsed + type.slotWidth ≤ 65536)
    (name : String) : history.step (.declare name type) = history := by
  rw [step, LocalMap.declare_of_not_fits notFits]

/-- A call registers a variable or has no effect. -/
theorem step_eq_or_exists_register (history : LocalHistory)
    (call : LocalCall) :
    history.step call = history ∨
      ∃ name slot type,
        history.step call = history.register name slot type := by
  cases call with
  | insert name slot type =>
      exact .inr ⟨name, slot, type, rfl⟩
  | declare name type =>
      by_cases fits : history.map.slotsUsed + type.slotWidth ≤ 65536
      · obtain ⟨slot, _, stepped⟩ := step_declare_of_fits fits name
        exact .inr ⟨name, slot, type, stepped⟩
      · exact .inl (step_declare_of_not_fits fits name)

/-! ## What a map keeps -/

/-- A map spans the slots of all variables that were registered, and gives the
latest one of a name. -/
structure IsKept (history : LocalHistory) : Prop where
  slotsUsed : history.map.slotsUsed = history.greatestBound
  get : ∀ name, history.map.get name = history.latest name

theorem isKept_empty : IsKept empty := ⟨rfl, fun _ => rfl⟩

namespace IsKept

variable {history : LocalHistory}

theorem register (kept : history.IsKept) (name : String) (slot : Address)
    (type : StaticType) : (history.register name slot type).IsKept where
  slotsUsed := by
    have spanned : (history.register name slot type).map.slotsUsed =
        max history.map.slotsUsed (Local.bound ⟨slot, type⟩) := rfl
    rw [spanned, kept.slotsUsed, Nat.max_comm]
    rfl
  get asked := by
    have found : (history.register name slot type).map.get asked =
        if asked = name then .ok ⟨slot, type⟩ else history.map.get asked :=
      LocalMap.get_insert _ _ _ _ _
    rw [found, latest, LocalHistory.register, List.lookup_cons]
    by_cases isName : asked = name
    · have same : (asked == name) = true := beq_iff_eq.2 isName
      rw [if_pos isName, same]
    · have differs : (asked == name) = false := beq_eq_false_iff_ne.2 isName
      rw [if_neg isName, differs, kept.get]
      rfl

theorem step (kept : history.IsKept) (call : LocalCall) :
    (history.step call).IsKept := by
  rcases history.step_eq_or_exists_register call with
    unchanged | ⟨name, slot, type, registered⟩
  · rw [unchanged]
    exact kept
  · rw [registered]
    exact kept.register name slot type

theorem bound_le_slotsUsed (kept : history.IsKept) {entry : String × Local}
    (isRegistered : entry ∈ history.registered) :
    entry.2.bound ≤ history.map.slotsUsed := by
  rw [kept.slotsUsed]
  exact bound_le_greatestBound isRegistered

end IsKept

theorem isKept_foldl_step (calls : List LocalCall) :
    (calls.foldl step empty).IsKept := by
  induction calls using List.reverseRecOn with
  | nil =>
      exact isKept_empty
  | append_singleton earlier call inductionHypothesis =>
      rw [List.foldl_append]
      exact inductionHypothesis.step call

theorem slotsUsed_le_step (history : LocalHistory) (call : LocalCall) :
    history.map.slotsUsed ≤ (history.step call).map.slotsUsed := by
  rcases history.step_eq_or_exists_register call with
    unchanged | ⟨name, slot, type, registered⟩
  · rw [unchanged]
  · rw [registered]
    exact Nat.le_max_left _ _

/-! ## Declarations alone -/

/-- No two variables that were registered share a slot, and all slots have an
address. -/
structure IsPacked (history : LocalHistory) : Prop where
  disjoint : history.registered.Pairwise fun first second =>
    Disjoint first.2.slots second.2.slots
  bounded : ∀ entry ∈ history.registered, entry.2.bound ≤ 65536

theorem isPacked_empty : IsPacked empty := ⟨.nil, nofun⟩

theorem IsPacked.step_declare {history : LocalHistory} (kept : history.IsKept)
    (packed : history.IsPacked) (name : String) (type : StaticType) :
    (history.step (.declare name type)).IsPacked := by
  by_cases fits : history.map.slotsUsed + type.slotWidth ≤ 65536
  · obtain ⟨slot, isNext, registered⟩ := step_declare_of_fits fits name
    rw [registered]
    constructor
    · refine List.pairwise_cons.2 ⟨fun entry isEarlier => ?_, packed.disjoint⟩
      have follows := kept.bound_le_slotsUsed isEarlier
      rw [← isNext] at follows
      exact Local.disjoint_slots follows
    · intro entry isRegistered
      rcases List.mem_cons.1 isRegistered with rfl | isEarlier
      · rw [← isNext] at fits
        exact fits
      · exact packed.bounded entry isEarlier
  · rw [step_declare_of_not_fits fits]
    exact packed

theorem isPacked_foldl_step (calls : List LocalCall) :
    (∀ call ∈ calls, call.isDeclaration) →
      (calls.foldl step empty).IsPacked := by
  induction calls using List.reverseRecOn with
  | nil =>
      intro _
      exact isPacked_empty
  | append_singleton earlier call inductionHypothesis =>
      intro declare
      rw [List.foldl_append]
      have packed := inductionHypothesis fun call isEarlier =>
        declare call (List.mem_append_left [_] isEarlier)
      have isDeclaration :=
        declare call (List.mem_append_right earlier List.mem_cons_self)
      cases call with
      | insert name slot type =>
          cases isDeclaration
      | declare name type =>
          exact packed.step_declare (isKept_foldl_step earlier) name type

end LocalHistory

/-- After any calls, a map spans the slots up to the end of the variable that
ends last, of all ever registered, and gives the latest variable of a name. No
call makes it span fewer. A declaration fails exactly if its slots would go
beyond the last address, and then has no effect; otherwise its slots begin where
the map ends and are none of any variable registered before. So where all calls
are declarations, variables of different names share no slot, and every slot has
an address. -/
theorem declared_locals_never_overlap (calls : List LocalCall) :
    let history := calls.foldl LocalHistory.step .empty
    let map := history.map
    map.slotsUsed = history.greatestBound ∧
      (∀ name, map.get name = history.latest name) ∧
      (∀ call, map.slotsUsed ≤ (history.step call).map.slotsUsed) ∧
      (∀ name type,
        ((map.declare name type).1 = .error .tooManyLocals ↔
          65536 < map.slotsUsed + type.slotWidth) ∧
        (65536 < map.slotsUsed + type.slotWidth →
          (map.declare name type).2 = map ∧
            history.step (.declare name type) = history) ∧
        (map.slotsUsed + type.slotWidth ≤ 65536 →
          ∃ slot : Address, slot.val = map.slotsUsed ∧
            map.declare name type = (.ok slot, map.insert name slot type) ∧
            history.step (.declare name type) =
              history.register name slot type ∧
            ∀ entry ∈ history.registered,
              Disjoint (Local.slots ⟨slot, type⟩) entry.2.slots)) ∧
      ((∀ call ∈ calls, call.isDeclaration) →
        (∀ name held, map.get name = .ok held →
          held.slots ⊆ Finset.range 65536) ∧
        ∀ name other held otherHeld, name ≠ other →
          map.get name = .ok held → map.get other = .ok otherHeld →
            Disjoint held.slots otherHeld.slots) := by
  intro history map
  have kept : history.IsKept := LocalHistory.isKept_foldl_step calls
  refine ⟨kept.slotsUsed, kept.get, history.slotsUsed_le_step,
    fun name type => ⟨map.declare_eq_error_iff name type, ?_, ?_⟩, ?_⟩
  · intro beyond
    have notFits := Nat.not_le.2 beyond
    rw [LocalMap.declare_of_not_fits notFits]
    exact ⟨rfl, LocalHistory.step_declare_of_not_fits notFits name⟩
  · intro fits
    obtain ⟨slot, isNext, declared⟩ := LocalMap.declare_of_fits fits name
    refine ⟨slot, isNext, declared, ?_, fun entry isEarlier => ?_⟩
    · rw [LocalHistory.step, declared]
      rfl
    · have follows := kept.bound_le_slotsUsed isEarlier
      rw [← isNext] at follows
      exact Local.disjoint_slots follows
  · intro declarations
    have packed := LocalHistory.isPacked_foldl_step calls declarations
    have isRegistered {name : String} {held : Local}
        (found : map.get name = .ok held) : (name, held) ∈ history.registered :=
      LocalHistory.mem_registered_of_latest ((kept.get name).symm.trans found)
    constructor
    · intro name held found
      exact Local.slots_subset_range (packed.bounded _ (isRegistered found))
    · intro name other held otherHeld different found otherFound
      have apart : (name, held) ≠ (other, otherHeld) := fun same =>
        different (congrArg Prod.fst same)
      exact packed.disjoint.forall (isRegistered found)
        (isRegistered otherFound) apart

/-- A variable that is declared again leaves its two slots empty; after one at
the last address nothing can be declared. -/
theorem slots_of_replaced_and_last_locals :
    let calls : List LocalCall :=
      [.declare "x" (.number .long), .declare "y" (.number .double),
        .declare "x" (.number .int)]
    let map := (calls.foldl LocalHistory.step .empty).map
    let last := LocalHistory.empty.step (.insert "z" 65535 (.number .long))
    (∀ call ∈ calls, call.isDeclaration) ∧
      map.get "x" = .ok ⟨4, .number .int⟩ ∧
      map.get "y" = .ok ⟨2, .number .double⟩ ∧
      Disjoint (Local.slots ⟨4, .number .int⟩)
        (Local.slots ⟨2, .number .double⟩) ∧
      last.map.slotsUsed = 65537 ∧
      (last.map.declare "x" (.number .int)).2 = last.map ∧
      last.step (.declare "x" (.number .int)) = last := by
  intro calls map last
  have declarations : ∀ call ∈ calls, call.isDeclaration := by
    decide
  have first : map.get "x" = .ok ⟨4, .number .int⟩ := rfl
  have second : map.get "y" = .ok ⟨2, .number .double⟩ := rfl
  have apart := (declared_locals_never_overlap calls).2.2.2.2 declarations
  have full := (declared_locals_never_overlap
    [.insert "z" 65535 (.number .long)]).2.2.2.1 "x" (.number .int)
  exact ⟨declarations, first, second,
    apart.2 "x" "y" _ _ (by decide) first second, rfl, full.2.1 (by decide)⟩

/-! ## Slots without an address -/

theorem StaticType.slotWidth_le (type : StaticType) : type.slotWidth ≤ 2 := by
  unfold slotWidth
  split <;> decide

namespace Local

/-- A local variable of two slots is at the last address, so that its second
slot has none. -/
def Overruns (held : Local) : Prop :=
  held.slot.val = 65535 ∧ held.type.slotWidth = 2

theorem bound_le (held : Local) : held.bound ≤ 65537 := by
  have lastSlot := held.slot.isLt
  have width := held.type.slotWidth_le
  simp only [bound]
  omega

theorem bound_le_iff_not_overruns (held : Local) :
    held.bound ≤ 65536 ↔ ¬ held.Overruns := by
  have lastSlot := held.slot.isLt
  have width := held.type.slotWidth_le
  simp only [bound, Overruns]
  omega

theorem slots_subset_range_iff (held : Local) (limit : Nat) :
    held.slots ⊆ Finset.range limit ↔ held.bound ≤ limit := by
  refine ⟨fun isSubset => ?_, slots_subset_range⟩
  have width := held.type.slotWidth_pos
  have lastSlot : held.bound - 1 ∈ held.slots := by
    refine Finset.mem_Ico.2 ⟨?_, ?_⟩ <;> simp only [bound] <;> omega
  have inside := Finset.mem_range.1 (isSubset lastSlot)
  omega

end Local

/-- A call puts a variable of two slots at the last address. -/
def LocalCall.Overruns : LocalCall → Prop
  | .insert _ slot type => Local.Overruns ⟨slot, type⟩
  | .declare _ _ => False

namespace LocalHistory

theorem greatestBound_le_iff (history : LocalHistory) (limit : Nat) :
    history.greatestBound ≤ limit ↔
      ∀ entry ∈ history.registered, entry.2.bound ≤ limit := by
  constructor
  · intro spanned entry isRegistered
    exact Nat.le_trans (bound_le_greatestBound isRegistered) spanned
  · obtain ⟨map, registered⟩ := history
    simp only [greatestBound]
    intro bounded
    induction registered with
    | nil =>
        exact Nat.zero_le limit
    | cons first rest inductionHypothesis =>
        rw [List.map_cons, List.foldr_cons]
        have later := inductionHypothesis fun entry isLater =>
          bounded entry (List.mem_cons_of_mem first isLater)
        exact Nat.max_le.2 ⟨bounded first List.mem_cons_self, later⟩

/-- No variable that was registered has a slot without an address. -/
def AllAddressed (history : LocalHistory) : Prop :=
  ∀ entry ∈ history.registered, ¬ entry.2.Overruns

theorem allAddressed_register_iff (history : LocalHistory) (name : String)
    (slot : Address) (type : StaticType) :
    (history.register name slot type).AllAddressed ↔
      ¬ Local.Overruns ⟨slot, type⟩ ∧ history.AllAddressed :=
  List.forall_mem_cons

theorem allAddressed_step_iff (history : LocalHistory) (call : LocalCall) :
    (history.step call).AllAddressed ↔
      ¬ call.Overruns ∧ history.AllAddressed := by
  cases call with
  | insert name slot type =>
      exact history.allAddressed_register_iff name slot type
  | declare name type =>
      by_cases fits : history.map.slotsUsed + type.slotWidth ≤ 65536
      · obtain ⟨slot, isNext, registered⟩ := step_declare_of_fits fits name
        have addressed : ¬ Local.Overruns ⟨slot, type⟩ := by
          rw [← isNext] at fits
          exact (Local.bound_le_iff_not_overruns _).1 fits
        rw [registered, allAddressed_register_iff]
        exact and_congr_left fun _ => iff_of_true addressed id
      · rw [step_declare_of_not_fits fits]
        exact (and_iff_right id).symm

theorem allAddressed_foldl_step_iff (calls : List LocalCall) :
    (calls.foldl step empty).AllAddressed ↔
      ∀ call ∈ calls, ¬ call.Overruns := by
  induction calls using List.reverseRecOn with
  | nil =>
      exact iff_of_true nofun nofun
  | append_singleton earlier call inductionHypothesis =>
      rw [List.foldl_append]
      have step := (earlier.foldl step empty).allAddressed_step_iff call
      rw [List.forall_mem_append, List.forall_mem_singleton]
      exact (step.trans (and_congr_right fun _ => inductionHypothesis)).trans
        And.comm

end LocalHistory

/-- After any calls, a map spans at most one slot more than there are addresses.
It spans no more slots than addresses exactly if no call put a variable of two
slots at the last address, and such a variable is the only one of whose slots
not all have an address. -/
theorem slots_addressed_unless_put_last (calls : List LocalCall) :
    let history := calls.foldl LocalHistory.step .empty
    history.map.slotsUsed ≤ 65537 ∧
      (history.map.slotsUsed ≤ 65536 ↔ ∀ call ∈ calls, ¬ call.Overruns) ∧
      ((∀ entry ∈ history.registered, entry.2.slots ⊆ Finset.range 65536) ↔
        ∀ call ∈ calls, ¬ call.Overruns) ∧
      ∀ entry ∈ history.registered,
        entry.2.slots ⊆ Finset.range 65536 ↔ ¬ entry.2.Overruns := by
  intro history
  have kept : history.IsKept := LocalHistory.isKept_foldl_step calls
  have addressed : history.AllAddressed ↔ ∀ call ∈ calls, ¬ call.Overruns :=
    LocalHistory.allAddressed_foldl_step_iff calls
  have inside (held : Local) :
      held.slots ⊆ Finset.range 65536 ↔ ¬ held.Overruns :=
    (held.slots_subset_range_iff 65536).trans held.bound_le_iff_not_overruns
  refine ⟨?_, ?_, ?_, fun entry _ => inside entry.2⟩
  · rw [kept.slotsUsed, history.greatestBound_le_iff]
    exact fun entry _ => entry.2.bound_le
  · rw [kept.slotsUsed, history.greatestBound_le_iff, ← addressed]
    exact forall₂_congr fun entry _ => entry.2.bound_le_iff_not_overruns
  · rw [← addressed]
    exact forall₂_congr fun entry _ => inside entry.2

/-- A wrapper of a long integer at the last address, and then a long integer
itself. -/
theorem slots_of_long_at_last_address :
    let calls : List LocalCall :=
      [.insert "x" 65535 ⟨.primitive (.number .long), true⟩,
        .insert "y" 65535 (.number .long)]
    let history := calls.foldl LocalHistory.step .empty
    ("y", ⟨65535, .number .long⟩) ∈ history.registered ∧
      ¬ Local.slots ⟨65535, .number .long⟩ ⊆ Finset.range 65536 ∧
      ("x", ⟨65535, .primitive (.number .long), true⟩) ∈ history.registered ∧
      Local.slots ⟨65535, .primitive (.number .long), true⟩ ⊆
        Finset.range 65536 := by
  intro calls history
  have first : ("x", ⟨65535, .primitive (.number .long), true⟩) ∈
      history.registered := by
    decide
  have second : ("y", ⟨65535, .number .long⟩) ∈ history.registered := by
    decide
  have inside := (slots_addressed_unless_put_last calls).2.2.2
  refine ⟨second, fun isSubset => ?_, first, ?_⟩
  · exact (inside _ second).1 isSubset ⟨rfl, rfl⟩
  · exact (inside _ first).2 fun overruns => absurd overruns.2 (by decide)

/-- Not all calls leave maps that span no more slots than there are addresses:
a long integer may be put at the last one. -/
theorem not_forall_slots_addressed :
    ¬ ∀ calls : List LocalCall,
      (calls.foldl LocalHistory.step .empty).map.slotsUsed ≤ 65536 := by
  intro allSpanned
  have spanned := allSpanned [.insert "top" 65535 (.number .long)]
  exact absurd spanned (by decide)

end Formula
