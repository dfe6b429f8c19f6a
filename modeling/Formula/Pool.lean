import Formula.LocalMap
import Std.Data.HashMap

/-!
Pools: entries in the order of their first use, each once.
-/

namespace Formula

/-- Entries in the order of their first use, and where each of them stands. -/
structure Pool (α : Type) [BEq α] [Hashable α] where
  entries : Array α
  positions : Std.HashMap α Address

namespace Pool

variable {α : Type} [BEq α] [Hashable α]

def empty : Pool α := ⟨#[], ∅⟩

/-- The position of an entry, which is added at the end if it is new. A pool
holds as many entries as an instruction has addresses. -/
def insert : Pool α → α → Except Error (Address × Pool α)
  | ⟨entries, positions⟩, entry =>
      match positions[entry]? with
      | some position => .ok (position, ⟨entries, positions⟩)
      | none =>
          if fits : entries.size < 65536 then
            let position : Address := ⟨entries.size, fits⟩
            .ok (position,
              ⟨entries.push entry, positions.insert entry position⟩)
          else .error .tooManyConstants

end Pool

end Formula
