import Formula.Dictionary
import Formula.Error

/-!
Local variables and the slots that hold them.
-/

namespace Formula

/-- The numbers that an instruction can carry. -/
abbrev Address := Fin 65536

def Address.ofNat? (number : Nat) : Option Address :=
  if isAddress : number < 65536 then some ⟨number, isAddress⟩ else none

/-- A slot and the type of what it holds. A value of two slots takes the next
slot too. -/
structure Local where
  slot : Address
  type : StaticType
  deriving DecidableEq, Repr

/-- The first slot after a local variable. -/
def Local.bound (held : Local) : Nat :=
  held.slot.val + held.type.slotWidth

/-- Local variables by name, and the number of slots that the variables ever
registered span. -/
structure LocalMap where
  locals : Dictionary String Local
  slotsUsed : Nat

namespace LocalMap

def empty : LocalMap := ⟨.empty, 0⟩

/-- Registers a local variable at a slot, replacing one of the same name. -/
def insert (map : LocalMap) (name : String) (slot : Address)
    (type : StaticType) : LocalMap :=
  let added : Local := ⟨slot, type⟩
  ⟨map.locals.insert name added, max map.slotsUsed added.bound⟩

/-- Registers a local variable at the next free slot, which is the result. The
map is left as it was if that slot has no address or if the slots of the
variable would end beyond the last address. -/
def declare (map : LocalMap) (name : String) (type : StaticType) :
    Except Error Address × LocalMap :=
  match Address.ofNat? map.slotsUsed with
  | none => (.error .tooManyLocals, map)
  | some slot =>
      if 65536 < map.slotsUsed + type.slotWidth then
        (.error .tooManyLocals, map)
      else (.ok slot, map.insert name slot type)

def get (map : LocalMap) (name : String) : Except Error Local :=
  match map.locals.get? name with
  | some found => .ok found
  | none => .error (.unknownReference name)

theorem get_empty (name : String) :
    empty.get name = .error (.unknownReference name) := rfl

theorem get_insert (map : LocalMap) (inserted name : String) (slot : Address)
    (type : StaticType) :
    (map.insert inserted slot type).get name =
      if name = inserted then .ok ⟨slot, type⟩ else map.get name := by
  by_cases isInserted : name = inserted
  · simp [get, insert, Dictionary.get?_insert, isInserted]
  · simp [get, insert, Dictionary.get?_insert, isInserted]

end LocalMap

end Formula
