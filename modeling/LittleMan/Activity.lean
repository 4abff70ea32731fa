import LittleMan.Machine.Basic

/-!
# Activity

What happened to each cell of the memory, so that a display can mark the cells that were executed,
read, stored to, or branched to.
-/

namespace LittleMan

/-- What happened to one cell. Counts stop at the largest number of 32 bits. -/
structure CellActivity where
  /-- How often its word was fetched. -/
  executed : Nat := 0
  /-- How often its word was used as a number. -/
  loaded : Nat := 0
  /-- How often it was stored to. -/
  stored : Nat := 0
  /-- A store put a different word into it. -/
  changed : Bool := false
  /-- How often a branch went to it. -/
  entered : Nat := 0
deriving DecidableEq, Repr, Inhabited

namespace CellActivity

def countLimit : Nat := 4294967295

def countUp (n : Nat) : Nat := min (n + 1) countLimit

def touched (c : CellActivity) : Bool :=
  c.executed > 0 || c.loaded > 0 || c.stored > 0 || c.entered > 0

end CellActivity

abbrev Activity := Vector CellActivity memorySize

namespace Activity

def empty : Activity := Vector.replicate memorySize {}

/-- The activity of a cell. Nothing happens beyond the last one. -/
def cell (activity : Activity) (address : Nat) : CellActivity := activity.getD address {}

/-- The activity after a change to one cell, if there is such a cell. -/
def update (activity : Activity) (address : Option Nat) (f : CellActivity → CellActivity) :
    Activity :=
  match address with
  | some a => if h : a < memorySize then activity.set a (f activity[a]) else activity
  | none => activity

/-- What happened, with one more step. -/
def record (activity : Activity) (e : Effect) : Activity :=
  activity.update e.fetched (fun c => { c with executed := CellActivity.countUp c.executed })
    |>.update e.read (fun c => { c with loaded := CellActivity.countUp c.loaded })
    |>.update (e.written.map Prod.fst) (fun c =>
        { c with stored := CellActivity.countUp c.stored
                 changed := c.changed || e.written.any Prod.snd })
    |>.update e.branched (fun c => { c with entered := CellActivity.countUp c.entered })

/-- The cells that something happened to, in address order. -/
def touched (activity : Activity) : List (Nat × CellActivity) :=
  (activity.toList.zipIdx.filter (·.1.touched)).map fun (c, address) => (address, c)

end Activity
end LittleMan
