import LittleMan.Device.Buffer
import LittleMan.Proofs.Machine.Step
import LittleMan.Session.Run

/-!
# Runs in their surroundings

The surroundings of a run are its host and its device, with what each of their actions does to the
world. What one turn of a run does there is listed case by case (`Taken`), whatever the world is, and
what holds of a run is proved from its last turn back to its first (`run_induction`).

With a device, a turn is a step after which the device has what the step put out, or an input. A run
without one takes the turns of its program (`eval_continueRun_iff`). That a run with a device comes
to the same as such turns is shown elsewhere, since it writes what was put out later.
-/

namespace LittleMan

/-- Notes that nobody takes. -/
def Host.unnoted {m : Type → Type} [Monad m] (_ : List Note) : m Unit := pure ()

/-- A host that changes no session, a device, and what they do to the world. -/
structure Surroundings (m : Type → Type) [Monad m] (σ : Type) where
  host : Host m
  device : Device m
  /-- The result of an action in a world, and the world after it. -/
  eval {α : Type} : m α → σ → α × σ
  /-- The host's answer whether the run may go on. -/
  goesOn : Session → σ → Bool
  asked : Session → σ → σ
  /-- The next piece of input. -/
  piece : σ → Option Text
  took : σ → σ
  wrote : Word → σ → σ
  eval_pure {α : Type} (a : α) (w : σ) : eval (pure a) w = (a, w)
  eval_bind {α β : Type} (act : m α) (f : α → m β) (w : σ) :
    eval (act >>= f) w = eval (f (eval act w).1) (eval act w).2
  eval_mayGoOn (s : Session) (w : σ) : eval (host.mayGoOn s) w = ((goesOn s w, s), asked s w)
  eval_note (notes : List Note) (w : σ) : eval (host.note notes) w = ((), w)
  eval_read (w : σ) : eval device.read w = (piece w, took w)
  eval_write (value : Word) (w : σ) : eval (device.write value) w = ((), wrote value w)

namespace Surroundings

variable {m : Type → Type} [Monad m] {σ : Type} (x : Surroundings m σ)

attribute [simp] eval_pure eval_bind eval_mayGoOn eval_note eval_read eval_write

/-- The world after a step's output is handed to the device, if there is both. -/
def delivered (io : Bool) (e : Effect) (w : σ) : σ :=
  match io, e.output with
  | true, some value => x.wrote value w
  | _, _ => w

/-- The same surroundings with a host that allows a number of instructions. -/
def limited (limit : UInt64) (first : Session) : Surroundings m σ where
  host := .limited x.host.note limit first
  device := x.device
  eval := x.eval
  goesOn s _ := s.executed - first.executed < limit
  asked _ w := w
  piece := x.piece
  took := x.took
  wrote := x.wrote
  eval_pure := x.eval_pure
  eval_bind := x.eval_bind
  eval_mayGoOn _ _ := x.eval_pure ..
  eval_note := x.eval_note
  eval_read := x.eval_read
  eval_write := x.eval_write

/-- A host that always agrees, and no device. -/
def alone : Surroundings Id Unit where
  host := .unlimited Host.unnoted
  device := .null
  eval act _ := (act, ())
  goesOn _ _ := true
  asked _ w := w
  piece _ := none
  took w := w
  wrote _ w := w
  eval_pure _ _ := rfl
  eval_bind _ _ _ := rfl
  eval_mayGoOn _ _ := rfl
  eval_note _ _ := rfl
  eval_read _ := rfl
  eval_write _ _ := rfl

/-- A host that always agrees, and a device that is part of the state. -/
def ofDevice (device : Device (StateM σ)) : Surroundings (StateM σ) σ where
  host := .unlimited Host.unnoted
  device := device
  eval act w := act w
  goesOn _ _ := true
  asked _ w := w
  piece w := (device.read w).1
  took w := (device.read w).2
  wrote value w := (device.write value w).2
  eval_pure _ _ := rfl
  eval_bind _ _ _ := rfl
  eval_mayGoOn _ _ := rfl
  eval_note _ _ := rfl
  eval_read _ := rfl
  eval_write _ _ := rfl

/-- A host that always agrees, and a buffer. -/
def buffered : Surroundings (StateM Buffer) Buffer := ofDevice (Buffer.device Host.unnoted)

end Surroundings

namespace Session

variable {m : Type → Type} [Monad m] {σ : Type} {x : Surroundings m σ} {io : Bool}
  {s s' : Session} {w w' : σ} {turn' : Turn} {outcome : Outcome} {turns : Nat}

/-- What one turn does, and the world after it. -/
inductive Taken (x : Surroundings m σ) (io : Bool) (s : Session) (w : σ) : Turn → σ → Prop
  | halted (status : s.machine.status = .halted) : Taken x io s w (s.paused .halt) w
  /-- There is no device to ask for input. -/
  | waiting (status : s.machine.status = .awaitingInput) (alone : io = false) :
      Taken x io s w (s.paused .awaitingInput) w
  | stopped (status : s.machine.status = .fetching) (no : x.goesOn s w = false) :
      Taken x io s w (s.paused .tripwire) (x.asked s w)
  | faulted {fault : Fault} (status : s.machine.status = .fetching) (yes : x.goesOn s w = true)
      (refused : s.machine.step s.flags = .error fault) :
      Taken x io s w (.ended (.error fault, { s with lastFetched := some s.machine.pc.toNat }))
        (x.asked s w)
  | broken {e : Effect} {next : Machine} (status : s.machine.status = .fetching)
      (yes : x.goesOn s w = true) (taken : s.machine.step s.flags = .ok (e, next))
      (atBreak : (s.afterStep e next).atBreakpoint e = true) :
      Taken x io s w ((s.afterStep e next).paused .breakpoint) (x.delivered io e (x.asked s w))
  | stepped {e : Effect} {next : Machine} (status : s.machine.status = .fetching)
      (yes : x.goesOn s w = true) (taken : s.machine.step s.flags = .ok (e, next))
      (goesOn : (s.afterStep e next).atBreakpoint e = false) :
      Taken x io s w (.more (s.afterStep e next)) (x.delivered io e (x.asked s w))
  /-- Input is awaited, and the host stops the run before it is read. -/
  | unasked (status : s.machine.status = .awaitingInput) (withDevice : io = true)
      (no : x.goesOn { s with pause := .awaitingInput } w = false) :
      Taken x io s w (s.paused .tripwire) (x.asked { s with pause := .awaitingInput } w)
  | starved {w₁ : σ} (status : s.machine.status = .awaitingInput) (withDevice : io = true)
      (yes : x.goesOn { s with pause := .awaitingInput } w = true)
      (asked : w₁ = x.asked { s with pause := .awaitingInput } w) (empty : x.piece w₁ = none) :
      Taken x io s w (.ended (.ok (), { s with pause := .awaitingInput })) (x.took w₁)
  | rejected {w₁ : σ} {piece : Text} {fault : Fault} (status : s.machine.status = .awaitingInput)
      (withDevice : io = true) (yes : x.goesOn { s with pause := .awaitingInput } w = true)
      (asked : w₁ = x.asked { s with pause := .awaitingInput } w) (read : x.piece w₁ = some piece)
      (refused : s.machine.resume s.flags (Text.trimBlanks piece) = .error fault) :
      Taken x io s w (.ended (.error fault, { s with pause := .awaitingInput })) (x.took w₁)
  | supplied {w₁ : σ} {piece : Text} {next : Machine} (status : s.machine.status = .awaitingInput)
      (withDevice : io = true) (yes : x.goesOn { s with pause := .awaitingInput } w = true)
      (asked : w₁ = x.asked { s with pause := .awaitingInput } w) (read : x.piece w₁ = some piece)
      (accepted : s.machine.resume s.flags (Text.trimBlanks piece) = .ok next) :
      Taken x io s w (.more { s with machine := next }.start) (x.took w₁)

theorem eval_turn (taken : Taken x false s w turn' w') :
    x.eval (s.turn x.host) w = (turn', w') := by
  cases taken with
  | halted status => simp [turn, status]
  | waiting status => simp [turn, status]
  | stopped status no => simp [turn, status, stepTurn, no]
  | faulted status yes refused => simp [turn, status, stepTurn, yes, step, refused]
  | broken status yes taken atBreak =>
    simp [turn, status, stepTurn, yes, step, taken, atBreak, Surroundings.delivered]
  | stepped status yes taken goesOn =>
    simp [turn, status, stepTurn, yes, step, taken, goesOn, Surroundings.delivered]
  | unasked status withDevice | starved status withDevice | rejected status withDevice
  | supplied status withDevice => cases withDevice

/-- Every turn is one of these. -/
theorem exists_taken (x : Surroundings m σ) (io : Bool) (s : Session) (w : σ) :
    ∃ turn' w', Taken x io s w turn' w' := by
  cases status : s.machine.status with
  | halted => exact ⟨_, _, .halted status⟩
  | fetching =>
    cases answer : x.goesOn s w with
    | false => exact ⟨_, _, .stopped status answer⟩
    | true =>
      rcases result : s.machine.step s.flags with fault | ⟨e, next⟩
      · exact ⟨_, _, .faulted status answer result⟩
      · cases atBreak : (s.afterStep e next).atBreakpoint e with
        | true => exact ⟨_, _, .broken status answer result atBreak⟩
        | false => exact ⟨_, _, .stepped status answer result atBreak⟩
  | awaitingInput =>
    cases io with
    | false => exact ⟨_, _, .waiting status rfl⟩
    | true =>
      cases answer : x.goesOn { s with pause := .awaitingInput } w with
      | false => exact ⟨_, _, .unasked status rfl answer⟩
      | true =>
        cases read : x.piece (x.asked { s with pause := .awaitingInput } w) with
        | none => exact ⟨_, _, .starved status rfl answer rfl read⟩
        | some piece =>
          cases result : s.machine.resume s.flags (Text.trimBlanks piece) with
          | error => exact ⟨_, _, .rejected status rfl answer rfl read result⟩
          | ok => exact ⟨_, _, .supplied status rfl answer rfl read result⟩

/-- A turn does one thing only. -/
theorem Taken.unique {turn₁ turn₂ : Turn} {w₁ w₂ : σ} (first : Taken x io s w turn₁ w₁)
    (second : Taken x io s w turn₂ w₂) : turn₁ = turn₂ ∧ w₁ = w₂ := by
  cases first <;> cases second <;> simp_all

theorem atBreakpoint_iff {e : Effect} :
    s.atBreakpoint e = true ↔
      s.machine.status = .fetching ∧ ∃ b ∈ s.breakpoints, b.holds s.machine e = true := by
  simp [atBreakpoint]

/-- A run ends with its machine halted if it ends without a fault and pauses at a halt, and only
then. -/
theorem Taken.halted_iff (taken : Taken x io s w (.ended outcome) w') :
    outcome.2.machine.halted = (outcome.1.isOk && outcome.2.haltedLast) := by
  have unhalted {m : Machine} (status : m.status ≠ .halted) : m.halted = false := by
    simpa [Machine.status_halted] using status
  cases taken with
  | halted status => exact Machine.status_halted.1 status
  | broken status yes taken atBreak =>
    have fetching := (atBreakpoint_iff.1 atBreak).1
    exact unhalted (by simp [fetching])
  | _ => exact unhalted (by simp [*])

/-- A run that goes on from here ends so within a number of turns. -/
inductive EndsWithin (x : Surroundings m σ) (io : Bool) (outcome : Outcome) (w' : σ) :
    Nat → Session → σ → Prop
  | last {turns : Nat} {s : Session} {w : σ} (taken : Taken x io s w (.ended outcome) w') :
      EndsWithin x io outcome w' (turns + 1) s w
  | earlier {turns : Nat} {s s₁ : Session} {w w₁ : σ} (taken : Taken x io s w (.more s₁) w₁)
      (rest : EndsWithin x io outcome w' turns s₁ w₁) :
      EndsWithin x io outcome w' (turns + 1) s w

/-- A run that goes on from here ends so, if it is allowed enough turns. -/
def Ends (x : Surroundings m σ) (io : Bool) (s : Session) (w : σ) (outcome : Outcome) (w' : σ) :
    Prop :=
  ∃ turns, EndsWithin x io outcome w' turns s w

theorem Ends.last (taken : Taken x io s w (.ended outcome) w') : Ends x io s w outcome w' :=
  ⟨1, .last taken⟩

theorem Ends.earlier {w₁ : σ} (taken : Taken x io s w (.more s') w₁)
    (rest : Ends x io s' w₁ outcome w') : Ends x io s w outcome w' := by
  obtain ⟨turns, ended⟩ := rest
  exact ⟨turns + 1, .earlier taken ended⟩

/-- What holds where the last turn of a run begins, and where an earlier turn begins if it holds
after it, holds where the run begins. -/
theorem run_induction {motive : Session → σ → Prop}
    (last : ∀ {s w}, Taken x io s w (.ended outcome) w' → motive s w)
    (earlier : ∀ {s w s₁ w₁}, Taken x io s w (.more s₁) w₁ → motive s₁ w₁ → motive s w)
    (ended : Ends x io s w outcome w') : motive s w := by
  obtain ⟨turns, ended⟩ := ended
  induction ended with
  | last taken => exact last taken
  | earlier taken rest ih => exact earlier taken ih

/-- A run that ends has a last turn. -/
theorem exists_last_turn (ended : Ends x io s w outcome w') :
    ∃ s₁ w₁, Taken x io s₁ w₁ (.ended outcome) w' :=
  run_induction (motive := fun _ _ => ∃ s₁ w₁, Taken x io s₁ w₁ (.ended outcome) w')
    (fun taken => ⟨_, _, taken⟩) (fun _ found => found) ended

/-! ## Surroundings that go along -/

section Follows

variable {n : Type → Type} [Monad n] {τ : Type} {y : Surroundings n τ} {R : σ → τ → Prop} {v : τ}

/-- What a run meets in worlds that are related is the same, and they stay related. -/
structure Follows (x : Surroundings m σ) (y : Surroundings n τ) (io : Bool) (R : σ → τ → Prop) :
    Prop where
  goesOn {w : σ} {v : τ} (s : Session) (related : R w v) : y.goesOn s v = x.goesOn s w
  asked {w : σ} {v : τ} (s : Session) (related : R w v) : R (x.asked s w) (y.asked s v)
  piece {w : σ} {v : τ} (device : io = true) (related : R w v) : y.piece v = x.piece w
  took {w : σ} {v : τ} (device : io = true) (related : R w v) : R (x.took w) (y.took v)
  wrote {w : σ} {v : τ} (device : io = true) (value : Word) (related : R w v) :
    R (x.wrote value w) (y.wrote value v)

variable (along : Follows x y io R)
include along

theorem Follows.delivered (e : Effect) (related : R w v) :
    R (x.delivered io e w) (y.delivered io e v) := by
  cases device : io with
  | false => exact related
  | true =>
    cases output : e.output with
    | none => simpa [Surroundings.delivered, output] using related
    | some value => simpa [Surroundings.delivered, output] using along.wrote device value related

theorem Taken.follows (taken : Taken x io s w turn' w') (related : R w v) :
    ∃ v', Taken y io s v turn' v' ∧ R w' v' := by
  have goesOn (t : Session) : y.goesOn t v = x.goesOn t w := along.goesOn t related
  have asked (t : Session) := along.asked t related
  cases taken with
  | halted status => exact ⟨v, .halted status, related⟩
  | waiting status alone => exact ⟨v, .waiting status alone, related⟩
  | stopped status no => exact ⟨_, .stopped status ((goesOn _).trans no), asked _⟩
  | faulted status yes refused =>
    exact ⟨_, .faulted status ((goesOn _).trans yes) refused, asked _⟩
  | broken status yes taken atBreak =>
    exact ⟨_, .broken status ((goesOn _).trans yes) taken atBreak, along.delivered _ (asked _)⟩
  | stepped status yes taken unbroken =>
    exact ⟨_, .stepped status ((goesOn _).trans yes) taken unbroken, along.delivered _ (asked _)⟩
  | unasked status device no => exact ⟨_, .unasked status device ((goesOn _).trans no), asked _⟩
  | starved status device yes answered empty =>
    subst answered
    exact ⟨_, .starved status device ((goesOn _).trans yes) rfl
      ((along.piece device (asked _)).trans empty), along.took device (asked _)⟩
  | rejected status device yes answered read refused =>
    subst answered
    exact ⟨_, .rejected status device ((goesOn _).trans yes) rfl
      ((along.piece device (asked _)).trans read) refused, along.took device (asked _)⟩
  | supplied status device yes answered read accepted =>
    subst answered
    exact ⟨_, .supplied status device ((goesOn _).trans yes) rfl
      ((along.piece device (asked _)).trans read) accepted, along.took device (asked _)⟩

theorem EndsWithin.follows (ended : EndsWithin x io outcome w' turns s w) (related : R w v) :
    ∃ v', EndsWithin y io outcome v' turns s v ∧ R w' v' := by
  induction ended generalizing v with
  | last taken =>
    obtain ⟨v', taken, related⟩ := taken.follows along related
    exact ⟨v', .last taken, related⟩
  | earlier taken rest ih =>
    obtain ⟨v₁, taken, related⟩ := taken.follows along related
    obtain ⟨v', rest, related⟩ := ih related
    exact ⟨v', .earlier taken rest, related⟩

end Follows

/-! ## Runs without a device -/

theorem eval_continueRun_ended (turns : Nat) (taken : Taken x false s w (.ended outcome) w') :
    x.eval (continueRun x.host (turns + 1) s) w = (some outcome, w') := by
  simp [continueRun, eval_turn taken]

theorem eval_continueRun_more (turns : Nat) (taken : Taken x false s w (.more s') w') :
    x.eval (continueRun x.host (turns + 1) s) w = x.eval (continueRun x.host turns s') w' := by
  simp [continueRun, eval_turn taken]

/-- A run without a device takes its turns. -/
theorem eval_continueRun_iff :
    x.eval (continueRun x.host turns s) w = (some outcome, w') ↔
      EndsWithin x false outcome w' turns s w := by
  constructor
  · intro ended
    induction turns generalizing s w with
    | zero => simp [continueRun] at ended
    | succ turns ih =>
      obtain ⟨turn', w₁, taken⟩ := exists_taken x false s w
      cases turn' with
      | ended result =>
        rw [eval_continueRun_ended _ taken] at ended
        cases ended
        exact .last taken
      | more next =>
        rw [eval_continueRun_more _ taken] at ended
        exact .earlier taken (ih ended)
  · intro ended
    induction ended with
    | last taken => exact eval_continueRun_ended _ taken
    | earlier taken rest ih => rw [eval_continueRun_more _ taken, ih]

/-- How a run without a device ends. -/
theorem ends_iff_run : Ends x false s.start w outcome w' ↔
    ∃ turns, x.eval (s.run x.host turns) w = (some outcome, w') :=
  exists_congr fun _ => eval_continueRun_iff.symm

end Session
end LittleMan
