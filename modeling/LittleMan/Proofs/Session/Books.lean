import LittleMan.Device.Buffer
import LittleMan.Proofs.Machine.Ledger
import LittleMan.Proofs.Session.Rounds

/-!
# The books of a session

Whatever is done with a session, its machine is one that calls led to, made one at a time and under
the flags in force; and what the session keeps is what the ledger of these calls says
(`performAll_kept`). A turn of a run makes at most one call (`Kept.more`, `Kept.ended`), so a run
makes the calls of its turns, and a series of operations makes the calls of each.
-/

namespace LittleMan

/-- A host for a run from a session, with a limit or without one. -/
def Host.within {m : Type → Type} [Monad m] (limit : Option UInt64) (s : Session) : Host m :=
  match limit with
  | none => .unlimited Host.unnoted
  | some limit => .limited Host.unnoted limit s

/-- What can be done with a session in a world that has devices. -/
inductive Operation (σ : Type) where
  | step
  | run (limit : Option UInt64) (turns : Nat)
  | runWith (device : Device (StateM σ)) (limit : Option UInt64) (turns : Nat)
  | resume (input : Text)
  | takeOutput
  | setBreakpoint (b : Breakpoint)
  | clearBreakpoint (b : Breakpoint)
  | setFlags (flags : Flags)

namespace Operation

variable {σ : Type}

/-- The values that an operation takes from the output, and the session and the world after it. There
is no answer if it is a run that does not end within its turns. -/
def perform (s : Session) (w : σ) : Operation σ → Option (List Word × Session × σ)
  | step => some ([], s.stepAlone.2, w)
  | run limit turns =>
    (Session.run (m := Id) (Host.within limit s) turns s : Option Outcome).map fun outcome =>
      ([], outcome.2, w)
  | runWith device limit turns =>
    match s.runWith (Host.within limit s) device turns w with
    | (some outcome, w) => some ([], outcome.2, w)
    | (none, _) => none
  | resume input => some ([], (s.resume input).toOption.getD s, w)
  | takeOutput => some (s.takeOutput.1.toList, s.takeOutput.2, w)
  | setBreakpoint b => some ([], s.setBreakpoint b, w)
  | clearBreakpoint b => some ([], s.clearBreakpoint b, w)
  | setFlags flags => some ([], { s with flags }, w)

/-- One operation after another, and all the values that they take from the output. -/
def performAll (s : Session) (w : σ) : List (Operation σ) → Option (List Word × Session × σ)
  | [] => some ([], s, w)
  | operation :: rest => do
    let (taken, s, w) ← operation.perform s w
    let (more, s, w) ← performAll s w rest
    return (taken ++ more, s, w)

/-- The flags that are in force after an operation. -/
def flagsAfter (flags : Flags) : Operation σ → Flags
  | setFlags flags => flags
  | _ => flags

end Operation

/-- The calls that a run makes under the flags in force: steps, and inputs if it has a device. -/
inductive Call.InRun (flags : Flags) : Bool → Call → Prop
  | step (io : Bool) : InRun flags io (.step flags)
  | resume (input : Text) : InRun flags true (.resume flags input)

/-- These may be the calls that an operation makes under the flags in force. -/
def Operation.Makes {σ : Type} (flags : Flags) (calls : List Call) : Operation σ → Prop
  | step => calls = [.step flags]
  | run _ _ => ∀ call ∈ calls, call.InRun flags false
  | runWith _ _ _ => ∀ call ∈ calls, call.InRun flags true
  | resume input => calls = [.resume flags input]
  | takeOutput | setBreakpoint _ | clearBreakpoint _ | setFlags _ => calls = []

/-- These may be the calls that operations make, one operation after another. -/
inductive Operation.Made {σ : Type} : Flags → List (Operation σ) → List Call → Prop
  | nil (flags : Flags) : Made flags [] []
  | cons {flags : Flags} {operation : Operation σ} {rest : List (Operation σ)}
      {calls more : List Call} (first : operation.Makes flags calls)
      (others : Made (operation.flagsAfter flags) rest more) :
      Made flags (operation :: rest) (calls ++ more)

namespace Session

variable {m : Type → Type} [Monad m] {σ : Type} {x : Surroundings m σ} {io : Bool}
  {l : Ledger} {taken outs : List Word} {flags : Flags} {s s' : Session} {w w' : σ}
  {outcome : Outcome}

/-! ## Runs -/

/-- A run without a device, in surroundings. -/
theorem exists_ends_alone {limit : Option UInt64} {turns : Nat}
    (ended : s.run (m := Id) (Host.within limit s) turns = some outcome) :
    ∃ x : Surroundings Id Unit, Ends x false s.start () outcome () := by
  cases limit with
  | none => exact ⟨.alone, ends_iff_run.2 ⟨turns, congrArg (·, ()) ended⟩⟩
  | some limit =>
    exact ⟨Surroundings.alone.limited limit s, ends_iff_run.2 ⟨turns, congrArg (·, ()) ended⟩⟩

/-- A run with a device, in surroundings. -/
theorem exists_ends_ofDevice {device : Device (StateM σ)} {limit : Option UInt64} {turns : Nat}
    (ended : s.runWith (Host.within limit s) device turns w = (some outcome, w')) :
    ∃ x : Surroundings (StateM σ) σ, Ends x true s.start w outcome w' := by
  cases limit with
  | none => exact ⟨.ofDevice device, ends_iff_runWith.2 ⟨turns, ended⟩⟩
  | some limit => exact ⟨(Surroundings.ofDevice device).limited limit s, ends_iff_runWith.2 ⟨turns, ended⟩⟩

/-! ## Keeping the books -/

/-- A session keeps what a ledger says, if these values were taken from its output before. -/
structure Kept (l : Ledger) (taken : List Word) (flags : Flags) (s : Session) : Prop where
  machine : s.machine = l.machine
  output : taken ++ s.output.toList = l.outputs
  executed : s.executed = UInt64.ofNat l.fetches
  lastFetched : s.lastFetched = l.last
  flags : s.flags = flags

namespace Kept

theorem load (object : Assembly.ObjectFile) (s : Session) :
    Kept (.ofMemory object.words) [] s.flags (s.load object) where
  machine := rfl
  output := rfl
  executed := rfl
  lastFetched := rfl
  flags := by simp [Session.load, reset]

/-- Nothing more was taken. -/
theorem append_nil (here : Kept l taken flags s) : Kept l (taken ++ []) flags s :=
  { here with output := by simpa using here.output }

theorem currentAddress (here : Kept l taken flags s) :
    s.currentAddress = l.last.getD l.machine.pc.toNat := by
  rw [Session.currentAddress, here.lastFetched, here.machine]

theorem afterStep {e : Effect} {next : Machine} (here : Kept l taken flags s)
    (stepped : s.machine.step s.flags = .ok (e, next)) :
    Kept (l.enter (.step flags)) taken flags (s.afterStep e next) := by
  rw [here.machine, here.flags] at stepped
  have effect := Machine.effectOf_step stepped
  refine ⟨(Machine.afterCall_step stepped).symm, ?_, ?_, ?_, here.flags⟩
  · simp [Session.afterStep, Ledger.enter, effect, ← here.output]
  · cases fetched : e.fetched <;>
      simp [Session.afterStep, Ledger.enter, effect, fetched, here.executed]
  · simp [Session.afterStep, Ledger.enter, Machine.addressed_step stepped, here.lastFetched]

/-- A refused step keeps the address that it was refused at: of a word that means no instruction, or
of the instruction that awaits input, which was fetched last. -/
theorem refused {fault : Fault} (here : Kept l taken flags s)
    (refused : s.machine.step s.flags = .error fault) :
    Kept (l.enter (.step flags)) taken flags
      { s with lastFetched := some s.machine.pc.toNat } := by
  rw [here.machine, here.flags] at refused
  have same : l.machine.afterCall (.step flags) = l.machine := by
    simp [Machine.afterCall, refused]
  have effect : l.machine.effectOf (.step flags) = {} := by
    simp [Machine.effectOf, refused]
  refine ⟨here.machine.trans same.symm, ?_, ?_, ?_, here.flags⟩
  · simp [Ledger.enter, effect, here.output]
  · simp [Ledger.enter, effect, here.executed]
  · show some s.machine.pc.toNat = (l.machine.addressed (.step flags) <|> l.last)
    rw [here.machine]
    rcases Machine.step_error_iff.1 refused with ⟨awaiting, rfl⟩ | ⟨-, -, word, -, -, rfl⟩
    · have standing := l.standing (Machine.status_awaiting.1 awaiting).2
      simp [Machine.addressed, refused, standing]
    · simp [Machine.addressed, refused]

theorem resumed {input : Text} {next : Machine} (here : Kept l taken flags s)
    (accepted : s.machine.resume s.flags input = .ok next) :
    Kept (l.enter (.resume flags input)) taken flags { s with machine := next } := by
  rw [here.machine, here.flags] at accepted
  refine ⟨?_, ?_, ?_, here.lastFetched, here.flags⟩
  · simp [Ledger.enter, Machine.afterCall, accepted]
  · simp [Ledger.enter, Machine.effectOf, here.output]
  · simp [Ledger.enter, Machine.effectOf, here.executed]

/-- An input that is refused changes nothing. -/
theorem rejected {input : Text} {fault : Fault} (here : Kept l taken flags s)
    (rejected : s.machine.resume s.flags input = .error fault) :
    Kept (l.enter (.resume flags input)) taken flags s := by
  rw [here.machine, here.flags] at rejected
  refine ⟨?_, ?_, ?_, here.lastFetched, here.flags⟩
  · simp [Ledger.enter, Machine.afterCall, rejected, here.machine]
  · simp [Ledger.enter, Machine.effectOf, here.output]
  · simp [Ledger.enter, Machine.effectOf, here.executed]

/-- A turn that does not end a run makes a call. -/
theorem more (here : Kept l taken flags s) (turn : Taken x io s w (.more s') w') :
    ∃ call, call.InRun flags io ∧ Kept (l.enter call) taken flags s' := by
  cases turn with
  | stepped status yes stepped goesOn =>
    exact ⟨.step flags, .step io, here.afterStep stepped⟩
  | @supplied w₁ piece next status withDevice yes asked read accepted =>
    subst withDevice
    exact ⟨.resume flags (Text.trimBlanks piece), .resume _, { here.resumed accepted with }⟩

/-- The last turn of a run makes a call, or none. -/
theorem ended (here : Kept l taken flags s) (turn : Taken x io s w (.ended outcome) w') :
    ∃ calls : List Call, (∀ call ∈ calls, call.InRun flags io) ∧
      Kept (l.enterAll calls) taken flags outcome.2 := by
  have one {call : Call} (inRun : call.InRun flags io) :
      ∀ call' ∈ [call], call'.InRun flags io := by
    simpa using inRun
  cases turn with
  | faulted status yes refused => exact ⟨_, one (.step io), here.refused refused⟩
  | broken status yes stepped atBreak =>
    exact ⟨_, one (.step io), { here.afterStep stepped with }⟩
  | rejected status withDevice yes asked read rejected =>
    subst withDevice
    exact ⟨_, one (.resume _), { here.rejected rejected with }⟩
  | _ => exact ⟨[], by simp, { here with }⟩

/-- A run makes the calls of its turns. -/
theorem run (here : Kept l taken flags s) (ended : Ends x io s.start w outcome w') :
    ∃ calls : List Call, (∀ call ∈ calls, call.InRun flags io) ∧
      Kept (l.enterAll calls) taken flags outcome.2 := by
  refine run_induction (motive := fun s _ => ∀ l, Kept l taken flags s →
    ∃ calls : List Call, (∀ call ∈ calls, call.InRun flags io) ∧
      Kept (l.enterAll calls) taken flags outcome.2) ?_ ?_ ended l { here with }
  · intro s w turn l here
    exact here.ended turn
  · intro s w s₁ w₁ turn rest l here
    obtain ⟨call, inRun, there⟩ := here.more turn
    obtain ⟨calls, inRuns, last⟩ := rest _ there
    exact ⟨call :: calls, by simpa using ⟨inRun, inRuns⟩, last⟩

theorem stepAlone (here : Kept l taken flags s) :
    Kept (l.enter (.step flags)) taken flags s.stepAlone.2 := by
  have fresh : Kept l taken flags { s with activity := .empty } := { here with }
  rw [Session.stepAlone, Session.step]
  split
  next e next stepped => exact fresh.afterStep stepped
  next fault refused => exact fresh.refused refused

theorem resume (here : Kept l taken flags s) (input : Text) :
    Kept (l.enter (.resume flags input)) taken flags ((s.resume input).toOption.getD s) := by
  rw [Session.resume]
  rcases answer : s.machine.resume s.flags input with fault | next
  · exact here.rejected answer
  · exact here.resumed answer

theorem takeOutput (here : Kept l taken flags s) :
    Kept l (taken ++ s.takeOutput.1.toList) flags s.takeOutput.2 :=
  { here with output := by simpa [Session.takeOutput] using here.output }

theorem setBreakpoint (here : Kept l taken flags s) (b : Breakpoint) :
    Kept l taken flags (s.setBreakpoint b) := by
  rw [Session.setBreakpoint]
  split
  next => exact here
  next => exact { here with }

/-- An operation keeps the books. -/
theorem perform {operation : Operation σ} (here : Kept l taken flags s)
    (performed : operation.perform s w = some (outs, s', w')) :
    ∃ calls, operation.Makes flags calls ∧
      Kept (l.enterAll calls) (taken ++ outs) (operation.flagsAfter flags) s' := by
  cases operation with
  | step =>
    cases performed
    exact ⟨[.step flags], rfl, here.stepAlone.append_nil⟩
  | run limit turns =>
    obtain ⟨outcome, ended, same⟩ := Option.map_eq_some_iff.1 performed
    cases same
    obtain ⟨x, ended⟩ := exists_ends_alone ended
    obtain ⟨calls, inRun, there⟩ := here.run ended
    exact ⟨calls, inRun, there.append_nil⟩
  | runWith device limit turns =>
    rcases ended : s.runWith (Host.within limit s) device turns w with ⟨_ | outcome, w₁⟩
    · simp [Operation.perform, ended] at performed
    · simp only [Operation.perform, ended] at performed
      cases performed
      obtain ⟨x, ended⟩ := exists_ends_ofDevice ended
      obtain ⟨calls, inRun, there⟩ := here.run ended
      exact ⟨calls, inRun, there.append_nil⟩
  | resume input =>
    cases performed
    exact ⟨[.resume flags input], rfl, (here.resume input).append_nil⟩
  | takeOutput =>
    cases performed
    exact ⟨[], rfl, here.takeOutput⟩
  | setBreakpoint b =>
    cases performed
    exact ⟨[], rfl, (here.setBreakpoint b).append_nil⟩
  | clearBreakpoint b =>
    cases performed
    have cleared : Kept l taken flags (s.clearBreakpoint b) := { here with }
    exact ⟨[], rfl, cleared.append_nil⟩
  | setFlags new =>
    cases performed
    have set : Kept l taken new { s with flags := new } := { here with flags := rfl }
    exact ⟨[], rfl, set.append_nil⟩

theorem performAll {operations : List (Operation σ)} (here : Kept l taken flags s)
    (performed : Operation.performAll s w operations = some (outs, s', w')) :
    ∃ calls flags', Operation.Made flags operations calls ∧
      Kept (l.enterAll calls) (taken ++ outs) flags' s' := by
  induction operations generalizing l taken flags s w outs with
  | nil =>
    cases performed
    exact ⟨[], flags, .nil flags, by simpa using here⟩
  | cons operation rest ih =>
    simp only [Operation.performAll, Option.bind_eq_bind, Option.bind_eq_some_iff] at performed
    obtain ⟨⟨first, s₁, w₁⟩, performed, ⟨more, s₂, w₂⟩, others, same⟩ := performed
    cases same
    obtain ⟨calls, makes, there⟩ := here.perform performed
    obtain ⟨calls', flags', made, last⟩ := ih there others
    exact ⟨calls ++ calls', flags', .cons makes made, by simpa using last⟩

end Kept

/-- The books of a session are faithful to the machine that calls lead to, one at a time and under
the flags in force. Whatever is done with a session that a program was loaded into, if every run
ends: what was taken from the output and what is left in it are the values that the calls put out,
in order; the count is of the words that they fetched; and the address is that of the word that they
fetched or refused last. -/
theorem performAll_kept (object : Assembly.ObjectFile) (first : Session)
    (operations : List (Operation σ)) {last : Session}
    (performed : Operation.performAll (first.load object) w operations = some (taken, last, w')) :
    ∃ calls, Operation.Made first.flags operations calls ∧
      last.machine = (Machine.ofMemory object.words).afterCalls calls ∧
      let books := (Ledger.ofMemory object.words).enterAll calls
      taken ++ last.output.toList = books.outputs ∧
      last.executed = UInt64.ofNat books.fetches ∧
      last.currentAddress = books.last.getD last.machine.pc.toNat := by
  obtain ⟨calls, flags, made, kept⟩ := (Kept.load object first).performAll performed
  refine ⟨calls, made, ?_, kept.output, kept.executed, ?_⟩
  · rw [kept.machine, Ledger.enterAll_machine]
    rfl
  · rw [kept.currentAddress, kept.machine]

/-- A program that puts out every number it gets. -/
def copying : Assembly.ObjectFile := ⟨.ofWords [901, 902, 600], 3, none⟩

/-- The number is put out at a breakpoint, and the last step is refused because input is awaited. -/
def errands : List (Operation Buffer) :=
  [.step, .resume "7".toList, .setBreakpoint .output, .runWith (Buffer.device Host.unnoted) none 9,
    .takeOutput, .setFlags { strict := true }, .run (some 5) 9, .step]

theorem performAll_kept_errands : ∃ last,
    Operation.performAll (load copying {}) {} errands = some ([7], last, { output := #[7] }) ∧
    ∃ calls, Operation.Made {} errands calls ∧
      last.machine = (Machine.ofMemory copying.words).afterCalls calls ∧
      let books := (Ledger.ofMemory copying.words).enterAll calls
      [7] ++ last.output.toList = books.outputs ∧
      last.executed = UInt64.ofNat books.fetches ∧
      last.currentAddress = books.last.getD last.machine.pc.toNat := by
  obtain ⟨last, performed⟩ : ∃ last,
      Operation.performAll (load copying {}) {} errands = some ([7], last, { output := #[7] }) :=
    ⟨_, rfl⟩
  exact ⟨last, performed, performAll_kept copying {} errands performed⟩

end Session
end LittleMan
