import LittleMan.Proofs.Machine.Trail
import LittleMan.Proofs.Session.SinceInput
import LittleMan.Proofs.Session.Stops

/-!
# The activity of a call without a device

A single step, and a run that reads no input, leave the activity of just the steps that they took
(`perform_activity`): what each count says of a cell can be read off the machines that took them.
-/

namespace LittleMan

open Machine (Footstep Move Trail fetches)

/-- What executes instructions without a device. -/
inductive Execution where
  /-- One step, by itself. -/
  | single
  /-- A run for as long as its host agrees. -/
  | run (turns : Nat)
  /-- A run for a number of instructions. -/
  | runLimited (limit : UInt64) (turns : Nat)

namespace Execution

variable {m : Type → Type} [Monad m] {σ : Type}

/-- How a call ends, and the world then. There is no outcome if it is a run that does not end within
its turns. -/
def perform (x : Surroundings m σ) (s : Session) (w : σ) : Execution → Option Outcome × σ
  | single => (some (s.stepAlone.1.map fun _ => (), s.stepAlone.2), w)
  | run turns => x.eval (s.run x.host turns) w
  | runLimited limit turns => x.eval (s.run (.limited x.host.note limit s) turns) w

/-- These are the steps that a call took, in order. A refused step was not taken. -/
def Took (x : Surroundings m σ) (s : Session) (w : σ) (outcome : Outcome) (w' : σ)
    (steps : List Footstep) : Execution → Prop
  | single => steps.map Footstep.effect = s.stepAlone.1.toOption.toList
  | run _ => Session.Course x false s.start w (steps.map fun f => .step f.effect) outcome w'
  | runLimited limit _ =>
    Session.Course (x.limited limit s) false s.start w (steps.map fun f => .step f.effect) outcome w'

end Execution

/-- What is shown of a cell is what these steps did there. -/
structure CellActivity.OfSteps (steps : List Footstep) (a : Nat) (inside : a < memorySize)
    (c : CellActivity) : Prop where
  executed : c.executed = min (steps.countP (·.before.fetchesFrom a)) countLimit
  loaded : c.loaded = min (steps.countP (·.before.reads a)) countLimit
  stored : c.stored = min (steps.countP (·.before.storesTo a)) countLimit
  entered : c.entered = min (steps.countP (·.before.branchesTo a)) countLimit
  /-- A store put a word there that differed from the word it replaced. -/
  changed : c.changed = true ↔
    ∃ f ∈ steps, f.before.storesTo a = true ∧ f.before.memory[a] ≠ f.before.acc

/-- The activity after these steps is theirs. -/
structure Activity.OfSteps (steps : List Footstep) (before after : Session) : Prop where
  cells : ∀ a (inside : a < memorySize), after.activity[a].OfSteps steps a inside
  unchanged : ∀ a (_ : a < memorySize), after.activity[a].changed = false →
    after.machine.memory[a] = before.machine.memory[a]
  touched : after.activity.touched =
    ((List.range memorySize).filter fun a => steps.any (·.effect.names a)).map
      fun a => (a, after.activity.cell a)
  /-- Unless an executed count has stopped, they sum to how many instructions were executed. -/
  executions : (∀ a < memorySize, steps.countP (·.before.fetchesFrom a) ≤ CellActivity.countLimit) →
    after.activity.executions = (after.executed - before.executed).toNat

namespace Session

variable {m : Type → Type} [Monad m] {σ : Type} {x : Surroundings m σ} {s after : Session}
  {w w' : σ} {outcome : Outcome} {moves : List Move} {steps : List Footstep} {call : Execution}

/-- A session after these steps, with what it keeps of them. -/
structure Shown (s : Session) (steps : List Footstep) (after : Session) : Prop where
  trail : Trail s.flags s.machine steps after.machine
  shows : after.activity.Shows (steps.map Footstep.effect)
  executed : after.executed =
    s.executed + UInt64.ofNat (steps.countP fun f => f.effect.fetched.isSome)

/-! ## The steps of a call -/

/-- A run without a device makes steps only. -/
theorem Course.exists_trail (course : Course x false s w moves outcome w') :
    ∃ steps, moves = steps.map (fun f => .step f.effect) ∧
      Trail s.flags s.machine steps outcome.2.machine := by
  induction course with
  | @last s w w' outcome taken =>
    have final := taken.final
    generalize (x.move? false s w).toList = moves at final
    cases final with
    | still machine => exact ⟨[], rfl, machine ▸ .nil _⟩
    | @broken e next stepped => exact ⟨[⟨s.machine, e⟩], rfl, .cons stepped (.nil _)⟩
  | @more s s' w w₁ w' moves outcome taken rest ih =>
    obtain ⟨move, made, -⟩ := taken.onward
    obtain ⟨steps, rfl, trail⟩ := ih
    cases taken with
    | @stepped e next status yes stepped goesOn =>
      refine ⟨⟨s.machine, e⟩ :: steps, ?_, .cons stepped trail⟩
      simp [Surroundings.move?, status, yes, stepped, Except.toOption]
    | supplied status withDevice => cases withDevice

theorem Course.shown (course : Course x false s.start w moves outcome w') :
    ∃ steps, moves = steps.map (fun f => .step f.effect) ∧ Shown s steps outcome.2 := by
  obtain ⟨steps, rfl, trail⟩ := course.exists_trail
  refine ⟨steps, rfl, trail, ?_, ?_⟩
  · rcases course.activity Activity.shows_nil with
      ⟨later, same, shows⟩ | ⟨front, text, later, same, -⟩
    · have effects : steps.map Footstep.effect = later := by
        have injective : Function.Injective Move.step := fun _ _ h => Move.step.inj h
        apply injective.list_map
        rw [← same, List.map_map]
        rfl
      rw [effects]
      exact shows
    · -- None of the moves is an input.
      have input : Move.input text ∈ steps.map fun f => .step f.effect := by simp [same]
      simp at input
  · rw [course.executed]
    simp [start, fetches, List.countP_map, Function.comp_def, Move.fetches]

theorem shown_single : ∃ steps : List Footstep,
    steps.map Footstep.effect = s.stepAlone.1.toOption.toList ∧ Shown s steps s.stepAlone.2 := by
  rw [stepAlone]
  rcases taken : s.machine.step s.flags with fault | ⟨e, next⟩
  · have refused : step { s with activity := .empty } =
        (.error fault, { s with activity := .empty, lastFetched := some s.machine.pc.toNat }) := by
      simp [step, taken]
    rw [refused]
    exact ⟨[], rfl, .nil _, Activity.shows_nil, by simp⟩
  · have stepped := step_of_ok (s := { s with activity := .empty }) taken
    rw [stepped]
    refine ⟨[⟨s.machine, e⟩], rfl, .cons taken (.nil _), Activity.shows_nil.record e, ?_⟩
    cases fetched : e.fetched <;> simp [afterStep, fetched]

theorem exists_shown (returned : call.perform x s w = (some outcome, w')) :
    ∃ steps, call.Took x s w outcome w' steps ∧ Shown s steps outcome.2 := by
  cases call with
  | single =>
    cases returned
    exact shown_single
  | run turns =>
    obtain ⟨moves, course⟩ := exists_course (ends_iff_run.2 ⟨turns, returned⟩)
    obtain ⟨steps, rfl, shown⟩ := course.shown
    exact ⟨steps, course, shown⟩
  | runLimited limit turns =>
    have returned : Ends (x.limited limit s) false s.start w outcome w' := ends_iff_run.2 ⟨turns, returned⟩
    obtain ⟨moves, course⟩ := exists_course returned
    obtain ⟨steps, rfl, shown⟩ := course.shown
    exact ⟨steps, course, shown⟩

/-! ## What is shown of the cells -/

/-- What the effects of steps say of a cell is what their machines did there. -/
theorem ofSteps_ofEffects {flags : Flags} {first last : Machine} {a : Nat}
    (trail : Trail flags first steps last) (inside : a < memorySize) :
    (CellActivity.ofEffects a (steps.map Footstep.effect)).OfSteps steps a inside := by
  have counted (p : Effect → Bool) (q : Machine → Bool)
      (same : ∀ f ∈ steps, ∀ next, f.before.Reports f.effect next a inside →
        p f.effect = q f.before) :
      min ((steps.map Footstep.effect).countP p) CellActivity.countLimit =
        min (steps.countP fun f => q f.before) CellActivity.countLimit := by
    rw [List.countP_map]
    congr 1
    refine List.countP_congr fun f made => ?_
    obtain ⟨next, reports⟩ := trail.exists_reports made inside
    simp [same f made next reports]
  refine ⟨?_, ?_, ?_, ?_, ?_⟩
  · exact counted (·.fetched == some a) (·.fetchesFrom a) fun f _ _ reports => reports.fetched
  · exact counted (·.read == some a) (·.reads a) fun f _ _ reports => reports.read
  · exact counted (·.written.any (·.1 == a)) (·.storesTo a) fun f _ _ reports => reports.written
  · exact counted (·.branched == some a) (·.branchesTo a) fun f _ _ reports => reports.branched
  · simp only [CellActivity.ofEffects, List.any_map, List.any_eq_true, Function.comp_apply,
      beq_iff_eq]
    refine exists_congr fun f => and_congr_right fun made => ?_
    obtain ⟨next, reports⟩ := trail.exists_reports made inside
    exact reports.changed

theorem Shown.ofSteps (shown : Shown s steps after) : Activity.OfSteps steps s after := by
  have cells : ∀ a (inside : a < memorySize), after.activity[a].OfSteps steps a inside := by
    intro a inside
    rw [shown.shows a inside]
    exact ofSteps_ofEffects shown.trail inside
  refine ⟨cells, ?_, ?_, ?_⟩
  · intro a inside same
    refine shown.trail.memory_eq inside fun f made stores => ?_
    by_contra other
    rw [(cells a inside).changed.2 ⟨f, made, stores, other⟩] at same
    cases same
  · simpa [List.any_map, Function.comp_def] using shown.shows.touched
  · intro few
    have sum : after.activity.executions = steps.countP fun f => f.effect.fetched.isSome := by
      have total := shown.shows.executions ?_ ?_
      · rw [total, List.countP_map]
        rfl
      · intro a inside
        rw [List.countP_map]
        refine Nat.le_trans (Nat.le_of_eq ?_) (few a inside)
        exact List.countP_congr fun f made => by
          obtain ⟨next, reports⟩ := shown.trail.exists_reports made inside
          simp [← reports.fetched]
      · intro e reported a fetched
        obtain ⟨f, made, rfl⟩ := List.mem_map.1 reported
        obtain ⟨next, taken⟩ := shown.trail.exists_next made
        exact Machine.fetched_lt_of_step taken fetched
    have small := shown.shows.executions_lt
    rw [sum] at small
    rw [sum, shown.executed, UInt64.add_comm, UInt64.add_sub_cancel,
      UInt64.toNat_ofNat_of_lt' small]

/-- After a single step, a run as long as its host agrees, or a limited run, whether it ended with a
fault or not, the activity is that of the steps that the call took, one after another, and of no
others. -/
theorem perform_activity (returned : call.perform x s w = (some outcome, w')) :
    ∃ steps, call.Took x s w outcome w' steps ∧
      Trail s.flags s.machine steps outcome.2.machine ∧
      Activity.OfSteps steps s outcome.2 := by
  obtain ⟨steps, took, shown⟩ := exists_shown returned
  exact ⟨steps, took, shown.trail, shown.ofSteps⟩

/-- A program that stores the word that is there already, stores another one and takes it back, and
comes to a word that means no instruction. -/
def scribbler : Session where
  machine := .ofMemory (.ofWords [508, 308, 309, 507, 309, 400, 0, 0, 5])
  flags := { strict := true }

theorem perform_activity_scribbler :
    let x := Surroundings.alone
    let call := Execution.runLimited 9 20
    ∃ outcome w', call.perform x scribbler () = (some outcome, w') ∧
      outcome.1 = .error (.illegalWord 400) ∧
      outcome.2.activity[8] = { loaded := 1, stored := 1 } ∧
      outcome.2.activity[9] = { stored := 2, changed := true } ∧
      ∃ steps, call.Took x scribbler () outcome w' steps ∧
        Trail scribbler.flags scribbler.machine steps outcome.2.machine ∧
        Activity.OfSteps steps scribbler outcome.2 := by
  intro x call
  obtain ⟨outcome, w', returned, refused, eight, nine⟩ : ∃ outcome w',
      call.perform x scribbler () = (some outcome, w') ∧
      outcome.1 = .error (.illegalWord 400) ∧
      outcome.2.activity[8] = { loaded := 1, stored := 1 } ∧
      outcome.2.activity[9] = { stored := 2, changed := true } :=
    ⟨_, _, rfl, rfl, rfl, rfl⟩
  exact ⟨outcome, w', returned, refused, eight, nine, perform_activity returned⟩

end Session
end LittleMan
