import LittleMan.Device.Basic
import LittleMan.Session.Basic

/-!
# Runs

A run executes instructions until the machine halts, needs input, reaches a breakpoint, meets a
fault, or is not allowed to go on. Before each step, the run's host is asked whether it may go on.

A run with a device is made of rounds. Each round is a run without a device, and before its host is
asked, the values that were put out since it was asked last are written. The rest of them is written
when the round has ended, whichever way it did. Where input is needed, the host is asked once more,
and what the device has to read is supplied before the next round.

A program may run forever, so the number of turns is bounded from outside: a run that has not ended
by then has no outcome. With a device the bound is one of the rounds, and of the turns of each.
-/

namespace LittleMan

/-- What a run asks of its surroundings. -/
structure Host (m : Type → Type) where
  /-- May the run go on? The session may be changed on this occasion. -/
  mayGoOn : Session → m (Bool × Session)
  note : List Note → m Unit

/-- How a run ended, and the session then. -/
abbrev Outcome := Except Fault Unit × Session

/-- What comes of one turn of a run, or of one round. -/
inductive Turn where
  | ended (outcome : Outcome)
  | more (session : Session)

namespace Session

variable {m : Type → Type} [Monad m]

/-! ## Runs without a device -/

/-- The end of a run that pauses. -/
def paused (pause : Pause) (s : Session) : Turn := .ended (.ok (), { s with pause })

/-- A turn of a machine that is ready to fetch: a step, if the host allows it. -/
@[specialize]
def stepTurn (host : Host m) (s : Session) : m Turn := do
  let (goOn, s) ← host.mayGoOn s
  if goOn then
    host.note s.stepNotes
    match s.step with
    | (.error fault, s) => return .ended (.error fault, s)
    | (.ok e, s) => return if s.atBreakpoint e then s.paused .breakpoint else .more s
  else return s.paused .tripwire

/-- One turn of a run. -/
@[specialize]
def turn (host : Host m) (s : Session) : m Turn :=
  match s.machine.status with
  | .halted => return s.paused .halt
  | .awaitingInput => return s.paused .awaitingInput
  | .fetching => s.stepTurn host

/-- A run from a session that has started, for at most a number of turns. -/
@[specialize]
def continueRun (host : Host m) : Nat → Session → m (Option Outcome)
  | 0, _ => return none
  | turns + 1, s => do
    match ← s.turn host with
    | .ended outcome => return some outcome
    | .more s => continueRun host turns s

@[specialize]
def run (host : Host m) (turns : Nat) (s : Session) : m (Option Outcome) :=
  continueRun host turns s.start

/-! ## Runs with a device -/

/-- Writes the values of the output after a number of them that were written before. -/
@[specialize]
def writeFrom (io : Device m) (written : Nat) (s : Session) : m Unit :=
  (s.output.extract written s.output.size).toList.forM io.write

end Session

/-- The host of a round. It keeps how many values of the output were written, and writes the others
before it asks the host of the run. A host that takes values from the output of a run with a device
breaks its contract: how many were written is then more than there are. -/
@[specialize]
def Host.writing {m : Type → Type} [Monad m] (host : Host m) (io : Device m) :
    Host (StateT Nat m) where
  mayGoOn s := do
    let written ← get
    (s.writeFrom io written : m Unit)
    set s.output.size
    host.mayGoOn s
  note notes := host.note notes

namespace Session

variable {m : Type → Type} [Monad m]

/-- What comes after a round that ended because input is needed: a piece of input, if the host allows
it and the device has one. -/
@[specialize]
def takeInput (host : Host m) (io : Device m) (s : Session) : m Turn := do
  let (goOn, s) ← host.mayGoOn s
  if goOn then
    match ← io.read with
    | none =>
      host.note [.inputExhausted]
      return .ended (.ok (), s)
    | some piece =>
      let input := Text.trimBlanks piece
      host.note (s.resumeNotes input)
      match s.resume input with
      | .error fault => return .ended (.error fault, s)
      | .ok s => return .more s
  else return s.paused .tripwire

/-- What comes after a round: what was not written yet is written, and the run ends unless input is
needed. -/
@[specialize]
def afterRound (host : Host m) (io : Device m) (written : Nat) : Outcome → m Turn
  | (result, s) => do
    s.writeFrom io written
    match result with
    | .error fault => return .ended (.error fault, s)
    | .ok () => if s.pause ≠ .awaitingInput then return .ended (.ok (), s) else s.takeInput host io

/-- A number of rounds, each of at most so many turns. -/
@[specialize]
def rounds (host : Host m) (io : Device m) (turns : Nat) : Nat → Session → m (Option Outcome)
  | 0, _ => return none
  | more + 1, s => do
    match ← (s.run (host.writing io) turns).run s.output.size with
    | (none, _) => return none
    | (some outcome, written) =>
      match ← afterRound host io written outcome with
      | .ended outcome => return some outcome
      | .more s => rounds host io turns more s

/-- A run that reads from a device and writes to it. What happened to the cells is kept since the
last input. -/
@[specialize]
def runWith (host : Host m) (io : Device m) (turns : Nat) (s : Session) : m (Option Outcome) :=
  rounds host io turns turns s

end Session

namespace Host

variable {m : Type → Type} [Monad m]

/-- A host that always lets a run go on. -/
def unlimited (note : List Note → m Unit) : Host m where
  mayGoOn s := pure (true, s)
  note := note

/-- A host that lets a run go on for a number of instructions from where its session is. -/
def limited (note : List Note → m Unit) (limit : UInt64) (s : Session) : Host m where
  mayGoOn t := pure (t.executed - s.executed < limit, t)
  note := note

end Host
end LittleMan
