import LittleMan.Proofs.Session.Surroundings

/-!
# Runs with a device, round by round

In a round, what a step put out is written when the host is asked next, or when the round has ended.
The world of a round comes with how many values of the output were written, and it owes the others.
The world in which what is owed is written too (`Surroundings.settled`) is the invariant of a round:
there, each of its turns is a turn that writes at once (`Taken.settled`), and the last one, with what
comes after the round, is one too (`Taken.afterRound`). So a run with a device ends as it would if it
wrote at once (`ends_iff_runWith`).
-/

namespace LittleMan

namespace Surroundings

variable {m : Type → Type} [Monad m] {σ : Type} (x : Surroundings m σ)

/-- The world after values are written, the first of the list first. -/
def wroteAll (values : List Word) (w : σ) : σ := values.foldl (fun w value => x.wrote value w) w

@[simp] theorem eval_forM_write (values : List Word) (w : σ) :
    x.eval (forM values x.device.write) w = ((), x.wroteAll values w) := by
  induction values generalizing w with
  | nil => simp [wroteAll]
  | cons value rest ih => simp [ih, wroteAll]

/-- The world in which the values of the output that were not written yet are written too. The number
beside a world is how many were. -/
def settled (s : Session) (v : σ × Nat) : σ := x.wroteAll (s.output.toList.drop v.2) v.1

@[simp] theorem eval_writeFrom (s : Session) (v : σ × Nat) :
    x.eval (s.writeFrom x.device v.2) v.1 = ((), x.settled s v) := by
  simp [Session.writeFrom, settled, List.take_of_length_le]

/-- The surroundings of a round. The world comes with how many values of the output were written. -/
def writing : Surroundings (StateT Nat m) (σ × Nat) where
  host := x.host.writing x.device
  device := .null
  eval act v :=
    let ((a, written), w) := x.eval (act.run v.2) v.1
    (a, w, written)
  goesOn s v := x.goesOn s (x.settled s v)
  asked s v := (x.asked s (x.settled s v), s.output.size)
  piece _ := none
  took v := v
  wrote _ v := v
  eval_pure a v := by simp
  eval_bind act f v := by simp
  eval_mayGoOn s v := by
    simp [Host.writing]
  eval_note notes v := by
    simp [Host.writing]
  eval_read v := by simp [Device.null]
  eval_write value v := by simp [Device.null]

/-- Nothing is owed where all of the output was written. -/
@[simp] theorem settled_size (s : Session) (w : σ) : x.settled s (w, s.output.size) = w := by
  rw [settled, ← Array.length_toList, List.drop_length]
  rfl

/-- When the host is asked, nothing is owed any more. -/
theorem settled_asked (s : Session) {t : Session} (v : σ × Nat) (same : t.output = s.output) :
    x.settled t (x.writing.asked s v) = x.asked s (x.settled s v) := by
  show x.settled t (x.asked s (x.settled s v), s.output.size) = _
  rw [← same, settled_size]

/-- After a step, only what it put out is owed. -/
theorem settled_afterStep (s : Session) (e : Effect) (next : Machine) (v : σ × Nat) :
    x.settled (s.afterStep e next) (x.writing.asked s v) =
      x.delivered true e (x.asked s (x.settled s v)) := by
  have owed : (s.afterStep e next).output.toList.drop s.output.size = e.output.toList := by
    rw [← Array.length_toList]
    simp [Session.afterStep]
  show x.wroteAll ((s.afterStep e next).output.toList.drop s.output.size)
    (x.asked s (x.settled s v)) = _
  rw [owed]
  cases output : e.output <;> simp [wroteAll, delivered, output]

end Surroundings

namespace Turn

/-- The session that a turn leaves. -/
def session : Turn → Session
  | ended outcome => outcome.2
  | more s => s

/-- The turn, if it goes on with a session that has started. -/
def started : Turn → Turn
  | ended outcome => ended outcome
  | more s => more s.start

end Turn

namespace Session

variable {m : Type → Type} [Monad m] {σ : Type} {x : Surroundings m σ} {s s' : Session}
  {v v' : σ × Nat} {w w' : σ} {turn' : Turn} {io : Bool}
  {outcome result : Outcome} {turns more left n : Nat}

/-! ## A turn of a round -/

/-- Where no input is awaited, a turn of a round is a turn that writes at once, in the worlds where
what is owed is written. -/
theorem Taken.settled (taken : Taken x.writing false s v turn' v')
    (ready : s.machine.status ≠ .awaitingInput) :
    Taken x true s (x.settled s v) turn' (x.settled turn'.session v') := by
  cases taken with
  | halted status => exact .halted status
  | stopped status no =>
    have here : Taken x true s _ (s.paused .tripwire) _ := .stopped status no
    rwa [← x.settled_asked s (t := { s with pause := .tripwire }) v rfl] at here
  | faulted status yes refused =>
    have here : Taken x true s _ _ _ := .faulted status yes refused
    rwa [← x.settled_asked s (t := { s with lastFetched := _ }) v rfl] at here
  | @broken e next status yes taken atBreak =>
    show Taken x true s _ _ (x.settled (s.afterStep e next) (x.writing.asked s v))
    rw [x.settled_afterStep]
    exact .broken status yes taken atBreak
  | @stepped e next status yes taken goesOn =>
    show Taken x true s _ _ (x.settled (s.afterStep e next) (x.writing.asked s v))
    rw [x.settled_afterStep]
    exact .stepped status yes taken goesOn
  | waiting status => exact absurd status ready
  | unasked status withDevice | starved status withDevice | rejected status withDevice
  | supplied status withDevice => cases withDevice

/-! ## What comes after a round -/

/-- A round that did not end with input awaited is the last, and the rest of the output is written. -/
theorem eval_afterRound_last (v : σ × Nat)
    (last : outcome.1 = .ok () → outcome.2.pause ≠ .awaitingInput) :
    x.eval (afterRound x.host x.device v.2 outcome) v.1 =
      (.ended outcome, x.settled outcome.2 v) := by
  obtain ⟨fault | _, s⟩ := outcome
  · simp [afterRound]
  · have unpaused : s.pause ≠ .awaitingInput := last rfl
    simp [afterRound, unpaused]

theorem eval_afterRound_awaiting (s : Session) (v : σ × Nat) :
    x.eval (afterRound x.host x.device v.2 (.ok (), { s with pause := .awaitingInput })) v.1 =
      x.eval (takeInput x.host x.device { s with pause := .awaitingInput }) (x.settled s v) := by
  have settled : x.settled { s with pause := .awaitingInput } v = x.settled s v := rfl
  simp [afterRound, settled]

/-- An input is taken as a turn takes it, but that the next round is not started yet. -/
theorem taken_takeInput (x : Surroundings m σ) (w : σ) (awaits : s.machine.status = .awaitingInput) :
    let after := x.eval (takeInput x.host x.device { s with pause := .awaitingInput }) w
    Taken x true s w after.1.started after.2 := by
  obtain ⟨turn', w', taken⟩ := exists_taken x true s w
  suffices same : let after := x.eval (takeInput x.host x.device { s with pause := .awaitingInput }) w
      after.1.started = turn' ∧ after.2 = w' by
    obtain ⟨rfl, rfl⟩ := same
    exact taken
  cases taken with
  | waiting status alone => cases alone
  | unasked status withDevice no => simp [takeInput, no, paused, Turn.started]
  | starved status withDevice yes asked empty =>
    simp [takeInput, yes, ← asked, empty, Turn.started]
  | rejected status withDevice yes asked read refused =>
    simp [takeInput, yes, ← asked, read, resume, refused, Except.map, Turn.started]
  | supplied status withDevice yes asked read accepted =>
    simp [takeInput, yes, ← asked, read, resume, accepted, Except.map, Turn.started, start]
  | halted status | stopped status | faulted status | broken status | stepped status =>
    cases awaits.symm.trans status

/-- A turn that ends a round where no input is awaited does not leave it waiting. -/
theorem Taken.unpaused_of_ready (taken : Taken x io s w (.ended outcome) w')
    (ready : s.machine.status ≠ .awaitingInput) :
    outcome.1 = .ok () → outcome.2.pause ≠ .awaitingInput := by
  intro ok
  cases taken with
  | halted | stopped | broken => simp
  | faulted => cases ok
  | waiting status | unasked status | starved status | rejected status => exact absurd status ready

/-- The last turn of a round, with what comes after the round, is one turn that writes at once. -/
theorem Taken.afterRound (taken : Taken x.writing false s v (.ended outcome) v') :
    let after := x.eval (afterRound x.host x.device v'.2 outcome) v'.1
    Taken x true s (x.settled s v) after.1.started after.2 := by
  by_cases awaits : s.machine.status = .awaitingInput
  -- The round waits, and what comes after it is the turn that takes the input.
  · obtain ⟨same, rfl⟩ := taken.unique (.waiting awaits rfl)
    cases same
    rw [eval_afterRound_awaiting]
    exact taken_takeInput x _ awaits
  · rw [eval_afterRound_last _ (taken.unpaused_of_ready awaits)]
    exact taken.settled awaits

/-! ## A round -/

/-- A run that writes at once comes to this, once a turn of it has come to that. -/
def EndsFrom (x : Surroundings m σ) (turns : Nat) (outcome : Outcome) (w' : σ) : Turn → σ → Prop
  | .ended result, w => result = outcome ∧ w = w'
  | .more next, w => EndsWithin x true outcome w' turns next w

theorem endsWithin_succ_iff {w₁ : σ} (taken : Taken x true s w turn' w₁) :
    EndsWithin x true outcome w' (n + 1) s w ↔ EndsFrom x n outcome w' turn' w₁ := by
  constructor
  · intro ended
    cases ended with
    | last taken' =>
      obtain ⟨rfl, rfl⟩ := taken.unique taken'
      exact ⟨rfl, rfl⟩
    | earlier taken' rest =>
      obtain ⟨rfl, rfl⟩ := taken.unique taken'
      exact rest
  · intro rest
    cases turn' with
    | ended result =>
      obtain ⟨rfl, rfl⟩ := rest
      exact .last taken
    | more next => exact .earlier taken rest

theorem Taken.ready_of_more (taken : Taken x.writing false s v (.more s') v') :
    s.machine.status ≠ .awaitingInput := by
  intro awaits
  cases (taken.unique (.waiting awaits rfl)).1

/-- A run that writes at once comes to what comes after a round of it. -/
theorem EndsWithin.of_round (round : EndsWithin x.writing false outcome v' turns s v)
    (rest : let after := x.eval (Session.afterRound x.host x.device v'.2 outcome) v'.1
      EndsFrom x n result w' after.1.started after.2) :
    Ends x true s (x.settled s v) result w' := by
  induction round with
  | last taken => exact ⟨n + 1, (endsWithin_succ_iff taken.afterRound).2 rest⟩
  | earlier taken round ih => exact .earlier (taken.settled taken.ready_of_more) ih

/-- A run that writes at once, and ends, has a round, and comes to what comes after it. -/
theorem EndsWithin.exists_round (ended : EndsWithin x true result w' n s (x.settled s v))
    (enough : n ≤ turns) :
    ∃ outcome v' k, k < n ∧ EndsWithin x.writing false outcome v' turns s v ∧
      let after := x.eval (Session.afterRound x.host x.device v'.2 outcome) v'.1
      EndsFrom x k result w' after.1.started after.2 := by
  -- Turn by turn along the run that writes at once, as long as the round goes on.
  induction n generalizing s v turns with
  | zero => cases ended
  | succ n ih =>
    obtain ⟨turns, rfl⟩ := Nat.exists_eq_add_of_lt enough
    obtain ⟨turn₁, v₁, taken⟩ := exists_taken x.writing false s v
    cases turn₁ with
    | ended outcome =>
      exact ⟨outcome, v₁, n, Nat.lt_succ_self n, .last taken,
        (endsWithin_succ_iff taken.afterRound).1 ended⟩
    | more next =>
      have ended := (endsWithin_succ_iff (taken.settled taken.ready_of_more)).1 ended
      obtain ⟨outcome, v', k, fewer, round, rest⟩ := ih ended (Nat.le_add_right n turns)
      exact ⟨outcome, v', k, by omega, .earlier taken round, rest⟩

/-! ## A whole run -/

theorem eval_rounds_succ (turns more : Nat) (s : Session) (w : σ) :
    x.eval (rounds x.host x.device turns (more + 1) s) w =
      match x.writing.eval (s.run x.writing.host turns) (w, s.output.size) with
      | (none, v) => (none, v.1)
      | (some outcome, v) =>
        match x.eval (afterRound x.host x.device v.2 outcome) v.1 with
        | (.ended result, w) => (some result, w)
        | (.more next, w) => x.eval (rounds x.host x.device turns more next) w := by
  have ran : x.eval ((s.run (x.host.writing x.device) turns).run s.output.size) w =
      let (ended, v) := x.writing.eval (s.run x.writing.host turns) (w, s.output.size)
      ((ended, v.2), v.1) := rfl
  rw [rounds, Surroundings.eval_bind, ran]
  rcases x.writing.eval (s.run x.writing.host turns) (w, s.output.size) with ⟨_ | outcome, v⟩
  · simp
  · simp only [Surroundings.eval_bind]
    rcases x.eval (afterRound x.host x.device v.2 outcome) v.1 with ⟨result | next, w₁⟩
    · simp
    · simp

theorem ends_of_rounds
    (ended : x.eval (rounds x.host x.device turns more s) w = (some outcome, w')) :
    Ends x true s.start w outcome w' := by
  induction more generalizing s w with
  | zero => simp [rounds] at ended
  | succ more ih =>
    rw [eval_rounds_succ] at ended
    rcases ran : x.writing.eval (s.run x.writing.host turns) (w, s.output.size) with ⟨_ | last, v⟩
    · simp [ran] at ended
    · have round := eval_continueRun_iff.1 ran
      rcases after : x.eval (afterRound x.host x.device v.2 last) v.1 with ⟨result | next, w₁⟩
      · simp only [ran, after] at ended
        cases ended
        have whole := round.of_round (n := 0) (by rw [after]; exact ⟨rfl, rfl⟩)
        exact x.settled_size s.start w ▸ whole
      · simp only [ran, after] at ended
        obtain ⟨n, rest⟩ := ih ended
        have whole := round.of_round (n := n) (by rw [after]; exact rest)
        exact x.settled_size s.start w ▸ whole

/-- Each round takes one turn at least, so as many rounds as turns are enough. -/
theorem EndsWithin.rounds (ended : EndsWithin x true outcome w' n s.start w)
    (enoughTurns : n ≤ turns) (enoughRounds : n ≤ more) :
    x.eval (rounds x.host x.device turns more s) w = (some outcome, w') := by
  induction more generalizing n s w with
  | zero =>
    obtain rfl : n = 0 := Nat.le_zero.1 enoughRounds
    cases ended
  | succ more ih =>
    have ended : EndsWithin x true outcome w' n s.start (x.settled s.start (w, s.output.size)) :=
      (x.settled_size s.start w).symm ▸ ended
    obtain ⟨last, v, k, fewer, round, rest⟩ := ended.exists_round enoughTurns
    have ran : x.writing.eval (s.run x.writing.host turns) (w, s.output.size) = (some last, v) :=
      eval_continueRun_iff.2 round
    rcases after : x.eval (afterRound x.host x.device v.2 last) v.1 with ⟨result | next, w₁⟩
    · rw [after] at rest
      obtain ⟨rfl, rfl⟩ := rest
      simp only [eval_rounds_succ, ran, after]
    · rw [after] at rest
      simp only [eval_rounds_succ, ran, after]
      exact ih rest (by omega) (by omega)

/-- A run with a device ends if it would end within as many turns if it wrote at once. -/
theorem EndsWithin.runWith (ended : EndsWithin x true outcome w' n s.start w) (enough : n ≤ turns) :
    x.eval (s.runWith x.host x.device turns) w = (some outcome, w') :=
  ended.rounds enough enough

/-- How a run with a device ends. -/
theorem ends_iff_runWith : Ends x true s.start w outcome w' ↔
    ∃ turns, x.eval (s.runWith x.host x.device turns) w = (some outcome, w') := by
  constructor
  · rintro ⟨turns, ended⟩
    exact ⟨turns, ended.runWith (Nat.le_refl turns)⟩
  · rintro ⟨turns, ended⟩
    exact ends_of_rounds ended

end Session
end LittleMan
