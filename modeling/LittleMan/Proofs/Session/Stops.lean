import LittleMan.Proofs.Machine.Calls
import LittleMan.Proofs.Session.Transcript

/-!
# Where a run stops

A run without a device takes the steps of its machine one after another, and stops at the first
number of steps after which there is a reason to stop (`StopsAfter`). The reasons are tested in a
fixed order (`stop?`). Breakpoints only add reasons, so with more of them a run goes through the same
sessions and stops as early or earlier (`run_stops_first`).
-/

namespace LittleMan

/-- Why a run stops. -/
inductive Stop where
  | halted
  | awaiting
  | broken
  /-- The host does not let the run go on. -/
  | tripped
  | refused (fault : Fault)
deriving DecidableEq, Repr

/-- How a run ends that stops at a session. A refused step keeps the address that it was refused
at. -/
def Stop.outcome (s : Session) : Stop → Outcome
  | halted => (.ok (), { s with pause := .halt })
  | awaiting => (.ok (), { s with pause := .awaitingInput })
  | broken => (.ok (), { s with pause := .breakpoint })
  | tripped => (.ok (), { s with pause := .tripwire })
  | refused fault => (.error fault, { s with lastFetched := some s.machine.pc.toNat })

/-- What is reported of a run says why it stopped. -/
structure Stop.Reported (stop : Stop) (outcome : Outcome) : Prop where
  halted : outcome.2.haltedLast = true ↔ stop = .halted
  awaits : outcome.2.awaitsInput = true ↔ stop = .awaiting
  broke : outcome.2.brokeLast = true ↔ stop = .broken
  fault : ∀ fault, outcome.1 = .error fault ↔ stop = .refused fault

namespace Session

def withBreakpoints (breakpoints : List Breakpoint) (s : Session) : Session := { s with breakpoints }

/-- The session after a number of steps. -/
def afterSteps (s : Session) : Nat → Session
  | 0 => s
  | k + 1 => (s.afterSteps k).step.2

/-- The effect of the last of a number of steps. -/
def lastEffect? (s : Session) : Nat → Option Effect
  | 0 => none
  | k + 1 => (s.afterSteps k).step.1.toOption

/-- Some breakpoint holds after the last of a number of steps. -/
def brokenAfter (s : Session) (k : Nat) : Bool :=
  (s.lastEffect? k).any fun e => s.breakpoints.any (·.holds (s.afterSteps k).machine e)

/-- Why a run stops after a number of steps: the first reason that there is. The host was asked as
often as there were steps before. -/
def stop? (goesOn : Nat → Session → Bool) (s : Session) (k : Nat) : Option Stop :=
  match (s.afterSteps k).machine.status with
  | .halted => some .halted
  | .awaitingInput => some .awaiting
  | .fetching =>
    if s.brokenAfter k then some .broken
    else if !goesOn k (s.afterSteps k) then some .tripped
    else
      match (s.afterSteps k).machine.step s.flags with
      | .error fault => some (.refused fault)
      | .ok _ => none

/-- This is the least number of steps after which there is a reason to stop. -/
structure StopsAfter (goesOn : Nat → Session → Bool) (s : Session) (k : Nat) (stop : Stop) :
    Prop where
  earlier : ∀ j < k, s.stop? goesOn j = none
  reason : s.stop? goesOn k = some stop

/-- One session goes through the states of another, and stops as early or earlier. -/
structure StopsWithin (goesOn : Nat → Session → Bool) (t s : Session) : Prop where
  steps : ∀ k, t.stop? goesOn k = none → s.stop? goesOn k = none
  stops : ∀ k stop, s.StopsAfter goesOn k stop → ∃ k' ≤ k, ∃ stop', t.StopsAfter goesOn k' stop'

variable {goesOn : Nat → Session → Bool} {s : Session} {j k : Nat} {stop : Stop} {e : Effect}
  {next : Machine} {more : List Breakpoint}

/-! ## Steps of a session -/

theorem step_of_ok (taken : s.machine.step s.flags = .ok (e, next)) :
    s.step = (.ok e, s.afterStep e next) := by
  simp [step, taken]

@[simp] theorem step_machine : s.step.2.machine = s.machine.afterCall (.step s.flags) := by
  rcases taken : s.machine.step s.flags with fault | ⟨e, next⟩ <;>
    simp [step, Machine.afterCall, taken, afterStep]

@[simp] theorem step_flags : s.step.2.flags = s.flags := by
  unfold step
  split <;> rfl

@[simp] theorem step_pause : s.step.2.pause = s.pause := by
  unfold step
  split <;> rfl

@[simp] theorem step_breakpoints : s.step.2.breakpoints = s.breakpoints := by
  unfold step
  split <;> rfl

@[simp] theorem afterSteps_flags : (s.afterSteps k).flags = s.flags := by
  induction k with
  | zero => rfl
  | succ k ih => simp [afterSteps, ih]

@[simp] theorem afterSteps_pause : (s.afterSteps k).pause = s.pause := by
  induction k with
  | zero => rfl
  | succ k ih => simp [afterSteps, ih]

@[simp] theorem afterSteps_breakpoints : (s.afterSteps k).breakpoints = s.breakpoints := by
  induction k with
  | zero => rfl
  | succ k ih => simp [afterSteps, ih]

theorem afterSteps_machine :
    (s.afterSteps k).machine = s.machine.afterCalls (List.replicate k (.step s.flags)) := by
  induction k with
  | zero => rfl
  | succ k ih =>
    simp [afterSteps, ih, List.replicate_succ', Machine.afterCalls]

/-! ## One turn -/

/-- There is no reason to stop if the machine is ready, no breakpoint holds, the host agrees, and the
step is taken. -/
theorem stop?_eq_none_iff : s.stop? goesOn k = none ↔
    (s.afterSteps k).machine.status = .fetching ∧ s.brokenAfter k = false ∧
      goesOn k (s.afterSteps k) = true ∧
      ∃ e next, (s.afterSteps k).machine.step s.flags = .ok (e, next) := by
  unfold stop?
  cases (s.afterSteps k).machine.status with
  | halted => simp
  | awaitingInput => simp
  | fetching =>
    cases s.brokenAfter k with
    | true => simp
    | false =>
      cases goesOn k (s.afterSteps k) with
      | false => simp
      | true => rcases (s.afterSteps k).machine.step s.flags with fault | ⟨e, next⟩ <;> simp

/-- A step that is taken is the next one, and the session then tests the breakpoints if its machine is
ready. -/
theorem afterSteps_succ_of_ok (taken : (s.afterSteps k).machine.step s.flags = .ok (e, next)) :
    s.afterSteps (k + 1) = (s.afterSteps k).afterStep e next ∧
      ((s.afterSteps (k + 1)).atBreakpoint e = true ↔
        (s.afterSteps (k + 1)).machine.status = .fetching ∧ s.brokenAfter (k + 1) = true) := by
  rw [← afterSteps_flags] at taken
  have stepped := step_of_ok taken
  have effect : s.lastEffect? (k + 1) = some e := by
    rw [lastEffect?, stepped]
    rfl
  constructor
  · rw [afterSteps, stepped]
  · simp [atBreakpoint, brokenAfter, effect]

theorem StopsAfter.unique {stop' : Stop} (first : s.StopsAfter goesOn j stop)
    (second : s.StopsAfter goesOn k stop') : j = k ∧ stop = stop' := by
  rcases Nat.lt_trichotomy j k with before | rfl | after
  · cases (second.earlier j before).symm.trans first.reason
  · exact ⟨rfl, Option.some.inj (first.reason.symm.trans second.reason)⟩
  · cases (first.earlier k after).symm.trans second.reason

/-- A run has taken these steps and goes on: nothing stopped it, and no breakpoint holds unless its
machine is not ready. -/
structure Underway (x : Answers) (s : Session) (k : Nat) (t : Transcript) : Prop where
  earlier : ∀ j < k, s.stop? x.goesOn j = none
  unbroken : (s.afterSteps k).machine.status = .fetching → s.brokenAfter k = false
  asked : t.questions = k

variable {x : Answers} {t exchanged : Transcript} {outcome : Outcome}

theorem underway_nil : Underway x s 0 [] where
  earlier _ before := absurd before (Nat.not_lt_zero _)
  unbroken _ := rfl
  asked := rfl

theorem Underway.exists_taken_of_stop (here : Underway x s k t)
    (reason : s.stop? x.goesOn k = some stop) :
    ∃ t', Taken x.surroundings false (s.afterSteps k) t
      (.ended (stop.outcome (s.afterSteps k))) t' := by
  unfold stop? at reason
  split at reason
  next halted => cases reason; exact ⟨_, .halted halted⟩
  next awaits => cases reason; exact ⟨_, .waiting awaits rfl⟩
  next fetching =>
    rw [if_neg (by simp [here.unbroken fetching])] at reason
    split at reason
    next no => cases reason; exact ⟨_, .stopped fetching (by simpa [here.asked] using no)⟩
    next yes =>
      have yes : x.surroundings.goesOn (s.afterSteps k) t = true := by simpa [here.asked] using yes
      split at reason
      next fault refused => cases reason; exact ⟨_, .faulted fetching yes (by simpa using refused)⟩
      next => cases reason

/-- A turn of a run is its last, at or after its step, or the run is underway after it. -/
theorem Underway.exists_taken (here : Underway x s k t) :
    ∃ t', (∃ l stop, s.StopsAfter x.goesOn l stop ∧
        Taken x.surroundings false (s.afterSteps k) t (.ended (stop.outcome (s.afterSteps l))) t') ∨
      (Underway x s (k + 1) t' ∧
        Taken x.surroundings false (s.afterSteps k) t (.more (s.afterSteps (k + 1))) t') := by
  cases reason : s.stop? x.goesOn k with
  | some stop =>
    obtain ⟨t', taken⟩ := here.exists_taken_of_stop reason
    exact ⟨t', .inl ⟨k, stop, ⟨here.earlier, reason⟩, taken⟩⟩
  | none =>
    have earlier := Nat.forall_lt_succ_right.2 ⟨here.earlier, reason⟩
    obtain ⟨fetching, -, yes, e, next, taken⟩ := stop?_eq_none_iff.1 reason
    have yes : x.surroundings.goesOn (s.afterSteps k) t = true := by simpa [here.asked] using yes
    obtain ⟨there, broken⟩ := afterSteps_succ_of_ok taken
    rw [← afterSteps_flags] at taken
    refine ⟨x.surroundings.delivered false e (x.surroundings.asked (s.afterSteps k) t), ?_⟩
    cases atBreak : (s.afterSteps (k + 1)).atBreakpoint e with
    | true =>
      have stops := broken.1 atBreak
      refine .inl ⟨k + 1, .broken, ⟨earlier, by simp [stop?, stops]⟩, ?_⟩
      rw [there] at atBreak ⊢
      exact .broken fetching yes taken atBreak
    | false =>
      have unbroken (ready : (s.afterSteps (k + 1)).machine.status = .fetching) :
          s.brokenAfter (k + 1) = false := by
        simpa [ready, atBreak] using broken
      refine .inr ⟨⟨earlier, unbroken, by simp [Answers.delivered_eq, here.asked]⟩, ?_⟩
      rw [there] at atBreak ⊢
      exact .stepped fetching yes taken atBreak

/-! ## A whole run -/

/-- A run that ends stops after the least number of steps that a reason to stop comes after. -/
theorem Underway.exists_stopsAfter {turns : Nat} (here : Underway x s k t)
    (ended : continueRun x.host turns (s.afterSteps k) t = (some outcome, exchanged)) :
    ∃ l stop, s.StopsAfter x.goesOn l stop ∧ outcome = stop.outcome (s.afterSteps l) := by
  have ended : Ends x.surroundings false (s.afterSteps k) t outcome exchanged :=
    ⟨turns, eval_continueRun_iff.1 ended⟩
  refine run_induction (motive := fun u t => ∀ k, u = s.afterSteps k → Underway x s k t →
    ∃ l stop, s.StopsAfter x.goesOn l stop ∧ outcome = stop.outcome (s.afterSteps l))
    ?_ ?_ ended k rfl here
  · rintro _ t last k rfl here
    obtain ⟨t', ⟨l, stop, stops, taken⟩ | ⟨-, taken⟩⟩ := here.exists_taken
    · cases (last.unique taken).1
      exact ⟨l, stop, stops, rfl⟩
    · cases (last.unique taken).1
  · rintro _ t u₁ t₁ stepped rest k rfl here
    obtain ⟨t', ⟨l, stop, -, taken⟩ | ⟨there, taken⟩⟩ := here.exists_taken
    · cases (stepped.unique taken).1
    · obtain ⟨same, rfl⟩ := stepped.unique taken
      cases same
      exact rest (k + 1) rfl there

theorem Underway.ends (here : Underway x s j t) (stops : s.StopsAfter x.goesOn k stop)
    (le : j ≤ k) :
    ∃ t', Ends x.surroundings false (s.afterSteps j) t (stop.outcome (s.afterSteps k)) t' := by
  induction left : k - j generalizing j t with
  | zero =>
    obtain rfl : j = k := by omega
    obtain ⟨t', taken⟩ := here.exists_taken_of_stop stops.reason
    exact ⟨t', .last taken⟩
  | succ n ih =>
    obtain ⟨t₁, ⟨l, stop', stops', taken⟩ | ⟨there, taken⟩⟩ := here.exists_taken
    · obtain ⟨rfl, rfl⟩ := stops'.unique stops
      exact ⟨t₁, .last taken⟩
    · obtain ⟨t', ended⟩ := ih there (by omega) (by omega)
      exact ⟨t', .earlier taken ended⟩

/-! ## What is reported -/

@[simp] theorem outcome_machine : (stop.outcome s).2.machine = s.machine := by
  cases stop <;> rfl

theorem awaiting_of_stop? (reason : s.stop? goesOn k = some stop) :
    (s.afterSteps k).machine.status = .awaitingInput ↔ stop = .awaiting := by
  unfold stop? at reason
  split at reason
  next halted => cases reason; simp [halted]
  next awaits => cases reason; simp [awaits]
  next fetching =>
    split at reason
    next => cases reason; simp [fetching]
    next =>
      split at reason
      next => cases reason; simp [fetching]
      next =>
        split at reason
        next => cases reason; simp [fetching]
        next => cases reason

theorem reported_outcome (fresh : s.pause = .none) (reason : s.stop? goesOn k = some stop) :
    stop.Reported (stop.outcome (s.afterSteps k)) where
  halted := by cases stop <;> simp [Stop.outcome, haltedLast, fresh]
  awaits := by simpa [awaitsInput] using awaiting_of_stop? reason
  broke := by cases stop <;> simp [Stop.outcome, brokeLast, fresh]
  fault fault := by cases stop <;> simp [Stop.outcome, eq_comm]

/-! ## More breakpoints -/

section MoreBreakpoints
variable (more : List Breakpoint)

@[simp] theorem withBreakpoints_breakpoints : (s.withBreakpoints more).breakpoints = more := rfl

@[simp] theorem withBreakpoints_machine : (s.withBreakpoints more).machine = s.machine := rfl

theorem start_withBreakpoints : (s.withBreakpoints more).start = s.start.withBreakpoints more := rfl

theorem step_withBreakpoints :
    (s.withBreakpoints more).step = (s.step.1, s.step.2.withBreakpoints more) := by
  rcases taken : s.machine.step s.flags with fault | ⟨e, next⟩ <;>
    simp [step, taken, afterStep, withBreakpoints]

@[simp] theorem afterSteps_withBreakpoints (k : Nat) :
    (s.withBreakpoints more).afterSteps k = (s.afterSteps k).withBreakpoints more := by
  induction k with
  | zero => rfl
  | succ k ih => rw [afterSteps, ih, step_withBreakpoints, afterSteps]

@[simp] theorem lastEffect?_withBreakpoints (k : Nat) :
    (s.withBreakpoints more).lastEffect? k = s.lastEffect? k := by
  cases k with
  | zero => rfl
  | succ k => rw [lastEffect?, afterSteps_withBreakpoints, step_withBreakpoints, lastEffect?]

end MoreBreakpoints

theorem brokenAfter_of_subset (subset : s.breakpoints ⊆ more)
    (unbroken : (s.withBreakpoints more).brokenAfter k = false) : s.brokenAfter k = false := by
  simp only [brokenAfter, lastEffect?_withBreakpoints, afterSteps_withBreakpoints,
    withBreakpoints_breakpoints, withBreakpoints_machine, Option.any_eq_false,
    List.any_eq_false] at unbroken ⊢
  intro e effect b set
  exact unbroken e effect b (subset set)

theorem stop?_of_subset (subset : s.breakpoints ⊆ more)
    (same : goesOn k ((s.withBreakpoints more).afterSteps k) = goesOn k (s.afterSteps k))
    (on : (s.withBreakpoints more).stop? goesOn k = none) : s.stop? goesOn k = none := by
  rw [stop?_eq_none_iff] at on ⊢
  obtain ⟨fetching, unbroken, yes, taken⟩ := on
  rw [same] at yes
  rw [afterSteps_withBreakpoints] at fetching taken
  exact ⟨fetching, brokenAfter_of_subset subset unbroken, yes, taken⟩

theorem exists_stopsAfter_le (reason : s.stop? goesOn k = some stop) :
    ∃ k' ≤ k, ∃ stop', s.StopsAfter goesOn k' stop' := by
  induction k using Nat.strongRecOn generalizing stop with
  | ind k ih =>
    by_cases earlier : ∀ j < k, s.stop? goesOn j = none
    · exact ⟨k, Nat.le_refl k, stop, earlier, reason⟩
    · obtain ⟨j, before, other⟩ : ∃ j, j < k ∧ s.stop? goesOn j ≠ none := by
        simpa using earlier
      obtain ⟨stop₁, found⟩ := Option.ne_none_iff_exists'.1 other
      obtain ⟨k', le, stops⟩ := ih j before found
      exact ⟨k', by omega, stops⟩

theorem stopsWithin_of_subset (subset : s.breakpoints ⊆ more)
    (same : ∀ k, goesOn k ((s.withBreakpoints more).afterSteps k) = goesOn k (s.afterSteps k)) :
    StopsWithin goesOn (s.withBreakpoints more) s where
  steps k := stop?_of_subset subset (same k)
  stops k stop last := by
    cases found : (s.withBreakpoints more).stop? goesOn k with
    | some other => exact exists_stopsAfter_le found
    | none => cases (stop?_of_subset subset (same k) found).symm.trans last.reason

/-- A run ends exactly if there comes a reason to stop, after the least number of steps that one
comes after, and it reports the reason. More breakpoints do not change the sessions that a run goes
through, and if the host gives it the same answers, it stops as early or earlier. -/
theorem run_stops_first (x : Answers) (s : Session) :
    (∀ turns outcome exchanged, s.run x.host turns [] = (some outcome, exchanged) →
      ∃ k stop, s.start.StopsAfter x.goesOn k stop ∧
        outcome = stop.outcome (s.start.afterSteps k) ∧ stop.Reported outcome ∧
        outcome.2.machine = s.machine.afterCalls (List.replicate k (.step s.flags))) ∧
    (∀ k stop, s.start.StopsAfter x.goesOn k stop → ∃ turns exchanged,
      s.run x.host turns [] = (some (stop.outcome (s.start.afterSteps k)), exchanged)) ∧
    ∀ more, s.breakpoints ⊆ more → let t := (s.withBreakpoints more).start
      (∀ k, t.afterSteps k = (s.start.afterSteps k).withBreakpoints more) ∧
      ((∀ k, x.goesOn k (t.afterSteps k) = x.goesOn k (s.start.afterSteps k)) →
        StopsWithin x.goesOn t s.start) := by
  refine ⟨?_, ?_, ?_⟩
  · intro turns outcome exchanged ended
    obtain ⟨k, stop, stops, rfl⟩ := underway_nil.exists_stopsAfter ended
    refine ⟨k, stop, stops, rfl, reported_outcome rfl stops.reason, ?_⟩
    rw [outcome_machine]
    exact afterSteps_machine
  · intro k stop stops
    obtain ⟨exchanged, turns, ended⟩ := underway_nil.ends stops (Nat.zero_le k)
    exact ⟨turns, exchanged, eval_continueRun_iff.2 ended⟩
  · intro more subset
    rw [start_withBreakpoints]
    exact ⟨afterSteps_withBreakpoints more, stopsWithin_of_subset subset⟩

/-- A program that puts out two values, and again. -/
def stutter : Session := { machine := .ofMemory (.ofWords [902, 902, 600]) }

/-- A host that agrees five times. -/
def patience : Answers where
  goesOn k _ := k < 5
  piece _ := none

theorem run_stops_first_stutter :
    stutter.start.StopsAfter patience.goesOn 5 .tripped ∧
    (∃ turns outcome exchanged, stutter.run patience.host turns [] = (some outcome, exchanged) ∧
      outcome = Stop.tripped.outcome (stutter.start.afterSteps 5) ∧
      ∃ k stop, stutter.start.StopsAfter patience.goesOn k stop ∧
        outcome = stop.outcome (stutter.start.afterSteps k) ∧ stop.Reported outcome ∧
        outcome.2.machine = stutter.machine.afterCalls (List.replicate k (.step stutter.flags))) ∧
    StopsWithin patience.goesOn (stutter.withBreakpoints [.arrival 2]).start stutter.start := by
  have tripped : stutter.start.StopsAfter patience.goesOn 5 .tripped :=
    ⟨by decide +kernel, by decide +kernel⟩
  obtain ⟨reported, ends, broken⟩ := run_stops_first patience stutter
  obtain ⟨turns, exchanged, ended⟩ := ends 5 .tripped tripped
  exact ⟨tripped, ⟨turns, _, exchanged, ended, rfl, reported turns _ exchanged ended⟩,
    (broken [.arrival 2] (by simp [stutter])).2 (by simp [patience])⟩

/-- A host may look at the breakpoints, and then more of them may make a run longer. -/
example (x : Answers) (looks : x.goesOn = fun _ s => !s.breakpoints.isEmpty) :
    stutter.stop? x.goesOn 0 = some .tripped ∧
      (stutter.withBreakpoints [.branch]).stop? x.goesOn 0 = none := by
  rw [looks]
  decide +kernel

end Session
end LittleMan
