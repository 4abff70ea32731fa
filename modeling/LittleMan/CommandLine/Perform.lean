import LittleMan.CommandLine.Arguments
import LittleMan.CommandLine.Listing
import LittleMan.CommandLine.Report
import LittleMan.CommandLine.Terminal
import LittleMan.Session.Run

/-!
# Commands

What each command does on a terminal, and whether it succeeds. A program that is run gets the inputs
of the command line first and the user's after them; one that is not a number is passed over, and
the next is tried.
-/

namespace LittleMan.CommandLine

variable {m : Type → Type} [Monad m]

/-- Reads and assembles a source file, or reports why that fails. -/
def load (t : Terminal m) (level : Level) (path : Text) (strict : Bool) :
    m (Option (Text × Assembly.ObjectFile)) := do
  match ← t.file path with
  | .error failure =>
    t.logLine ("error: could not read ".toList ++ path ++ ": ".toList ++ failure.message.toList)
    return none
  | .ok source =>
    let outcome := Assembly.assemble { strict, symbols := true } source
    t.note level outcome.notes
    match outcome.result with
    | .error e =>
      t.logLines (reportLines path source e.problem.message e.problem.help (some e.places.first))
      return none
    | .ok object => return some (source, object)

def performCheck (t : Terminal m) (level : Level) (path : Text) (settings : Settings) : m Bool := do
  match ← load t level path settings.strict with
  | none => return false
  | some (_, object) =>
    t.putLine (path ++ s!": no errors found ({object.length} of 100 cells used)".toList)
    return true

def performAssemble (t : Terminal m) (level : Level) (path : Text) (settings : Settings) :
    m Bool := do
  match ← load t level path settings.strict with
  | none => return false
  | some (_, object) =>
    t.putLines (if settings.listing then listingLines object else imageLines object.words)
    return true

/-- The device of a program that is run on a terminal. The inputs that are left of the command line
are kept beside the terminal. -/
def terminalDevice (t : Terminal m) : Device (StateT (List Text) m) :=
  .queued { read := t.nextInput, write value := t.putLine value.text }

/-- The host of a program that is run on a terminal: it waits before each instruction, and stops the
run when the limit is reached. -/
def terminalHost (t : Terminal m) (level : Level) (settings : Settings) :
    Host (StateT (List Text) m) where
  mayGoOn s := do
    let delay := settings.delay.getD 0
    if delay ≠ 0 then t.wait delay
    return (settings.limit.all (s.executed < ·), s)
  note notes := t.note level notes

/-- Runs a session until something else than a bad input ends the run. At most `tries` runs of at
most `turns` turns are made. -/
@[specialize]
def runOn (host : Host m) (io : Device m) (turns : Nat) : Nat → Session → m (Option Outcome)
  | 0, _ => return none
  | tries + 1, s => do
    match ← s.runWith host io turns with
    | some (.error (.invalidInput input), s) =>
      host.note [.tokenIgnored input]
      runOn host io turns tries s
    | outcome => return outcome

/-- Reports how a run ended, and whether the machine halted. -/
def conclude (t : Terminal m) (level : Level) (path source : Text) (object : Assembly.ObjectFile)
    (settings : Settings) : Outcome → m Bool
  | (.ok _, s) =>
    if s.haltedLast then do
      t.note level [.runFinished s.executed.toNat]
      return true
    else if s.awaitsInput && !settings.limit.any (· ≤ s.executed) then do
      t.logLine ("error: program is waiting for input at ".toList ++ addressText s.currentAddress ++
        ", but there is no more input".toList)
      return false
    else do
      t.logLine (s!"error: stopped after {s.executed.toNat} instruction(s) without halting".toList)
      t.logLine s.machine.text
      return false
  | (.error fault, s) => do
    let line := object.symbols.bind (·.lineOfAddress? s.currentAddress)
    t.logLine ("at address ".toList ++ addressText s.currentAddress ++ [':'])
    let place := line.bind (Source.lineSpan? source)
    t.logLines (reportLines path source fault.message fault.help place)
    return false

/-- Assembles a program and runs it. There is no answer if it does not end within `turns`. -/
def performRun (t : Terminal m) (level : Level) (turns : Nat) (path : Text) (settings : Settings) :
    m (Option Bool) := do
  match ← load t level path settings.strict with
  | none => return some false
  | some (source, object) =>
    let flags : Flags := { strict := settings.strict, policy := settings.policy.getD .unchecked }
    t.note level (Session.loadNotes object)
    let session := Session.load object { flags }
    let running := runOn (terminalHost t level settings) (terminalDevice t) turns turns session
    let (outcome, _) ← running.run settings.inputs
    match outcome with
    | none => return none
    | some outcome => some <$> conclude t level path source object settings outcome

/-- Carries out a command, and tells whether it succeeded. There is no answer if a run does not end
within `turns`. -/
def perform (t : Terminal m) (turns : Nat) (command : Command) (path : Text) (settings : Settings) :
    m (Option Bool) :=
  let level := levelOf settings.verbosity
  match command with
  | .run => performRun t level turns path settings
  | .assemble => some <$> performAssemble t level path settings
  | .check => some <$> performCheck t level path settings

inductive Ending where
  | success
  | failure
  /-- The arguments were refused. -/
  | misuse
deriving DecidableEq, Repr

def Ending.code : Ending → Nat
  | success => 0
  | failure => 1
  | misuse => 2

/-- Does what the arguments ask for. There is no answer if a run does not end within `turns`. -/
def respond (t : Terminal m) (turns : Nat) (arguments : List Text) : m (Option Ending) := do
  match Request.ofArguments arguments with
  | .error error =>
    t.logLine ("error: ".toList ++ error.message)
    t.logLines (usage.map String.toList)
    return some .misuse
  | .ok .help =>
    t.putLines (usage.map String.toList)
    return some .success
  | .ok .version =>
    t.putLine versionLine.toList
    return some .success
  | .ok (.perform command path settings) =>
    let succeeded ← perform t turns command path settings
    return succeeded.map fun yes => if yes then .success else .failure

end LittleMan.CommandLine
