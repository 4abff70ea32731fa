import LittleMan.Activity
import LittleMan.Assembly.ObjectFile
import LittleMan.Breakpoint

/-!
# Sessions

A session is a machine with what is kept on its run: the values that were put out, how many
instructions were executed, which was fetched last, why the last run paused, and what happened to
each cell; and with what was set up for it, its flags and its breakpoints.
-/

namespace LittleMan

/-- Why the last run paused. -/
inductive Pause where
  /-- It has not paused, or it failed. -/
  | none
  | halt
  | awaitingInput
  | breakpoint
  /-- It was not allowed to go on. -/
  | tripwire
deriving DecidableEq, Repr, Inhabited

structure Session where
  machine : Machine := .ofMemory .empty
  /-- The values that were put out, in order, and not yet taken. -/
  output : Array Word := #[]
  /-- How many instructions were executed. The count wraps after 64 bits. -/
  executed : UInt64 := 0
  /-- The address that was fetched last, or whose word was refused. -/
  lastFetched : Option Nat := none
  pause : Pause := .none
  /-- What happened to each cell since the last run or single step began. -/
  activity : Activity := .empty
  flags : Flags := {}
  /-- The breakpoints that are set, each once. -/
  breakpoints : List Breakpoint := []

namespace Session

/-- A fresh machine with the flags and the breakpoints of a session. -/
def reset (s : Session) : Session := { flags := s.flags, breakpoints := s.breakpoints }

/-- A fresh machine that is about to run a program. -/
def load (o : Assembly.ObjectFile) (s : Session) : Session :=
  { s.reset with machine := .ofMemory o.words }

def loadNotes (o : Assembly.ObjectFile) : List Note := [.programLoaded o.length]

/-- The address of the instruction that is or was executed last: the counter's if there was none. -/
def currentAddress (s : Session) : Nat := s.lastFetched.getD s.machine.pc.toNat

/-- The last run ended because the machine halted. -/
def haltedLast (s : Session) : Bool := s.pause == .halt

def brokeLast (s : Session) : Bool := s.pause == .breakpoint

def awaitsInput (s : Session) : Bool := s.machine.status == .awaitingInput

/-- Some breakpoint that is set holds after a step with this effect. A machine that halted or awaits
input is not at a breakpoint. -/
def atBreakpoint (s : Session) (e : Effect) : Bool :=
  s.machine.status == .fetching && s.breakpoints.any (·.holds s.machine e)

def setBreakpoint (b : Breakpoint) (s : Session) : Session :=
  if b ∈ s.breakpoints then s else { s with breakpoints := s.breakpoints ++ [b] }

def clearBreakpoint (b : Breakpoint) (s : Session) : Session :=
  { s with breakpoints := s.breakpoints.filter (· != b) }

/-- The values that were put out, and the session without them. -/
def takeOutput (s : Session) : Array Word × Session := (s.output, { s with output := #[] })

/-- The session after its machine took a step with this effect. -/
def afterStep (s : Session) (e : Effect) (machine : Machine) : Session :=
  { s with
    machine
    output := s.output ++ e.output.toArray
    executed := if e.fetched.isSome then s.executed + 1 else s.executed
    lastFetched := e.fetched <|> s.lastFetched
    activity := s.activity.record e }

/-- One step of the machine, kept in the books. A refused step keeps the address that it was refused
at. -/
def step (s : Session) : Except Fault Effect × Session :=
  match s.machine.step s.flags with
  | .ok (e, machine) => (.ok e, s.afterStep e machine)
  | .error fault => (.error fault, { s with lastFetched := some s.machine.pc.toNat })

def stepNotes (s : Session) : List Note := s.machine.stepNotes s.flags

/-- A single step, which the activity is that of. -/
def stepAlone (s : Session) : Except Fault Effect × Session := step { s with activity := .empty }

/-- Supplies the input that the machine awaits. -/
def resume (input : Text) (s : Session) : Except Fault Session :=
  (s.machine.resume s.flags input).map fun machine => { s with machine }

def resumeNotes (input : Text) (s : Session) : List Note := s.machine.resumeNotes input

/-- A session at the start of a run: nothing has happened to the cells, and it has not paused. -/
def start (s : Session) : Session := { s with activity := .empty, pause := .none }

end Session
end LittleMan
