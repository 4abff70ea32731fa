import LittleMan.Instruction

/-!
# Memory

The hundred cells of the machine.
-/

namespace LittleMan

abbrev Memory := Vector Word memorySize

namespace Memory

/-- A memory that starts with the given words. Cells beyond them hold 0, and words beyond the last
cell are left out. -/
def ofWords (words : List Word) : Memory := Vector.ofFn fun a => words.getD a.val 0

def empty : Memory := ofWords []

theorem getElem_ofWords (words : List Word) (a : Nat) (h : a < memorySize) :
    (ofWords words)[a] = words.getD a 0 := by
  simp [ofWords]

end Memory
end LittleMan
