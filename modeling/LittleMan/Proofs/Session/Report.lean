import LittleMan.Proofs.Session.Limited

/-!
# What a run reports

How a run ended is reported with its result and in its session: the halt, the breakpoint, the
address. Whatever was reported of an earlier run, the report is true of the machine that the run
leaves (`run_truthful`). The pause is cleared when a run starts, and each way to end sets it or
leaves it cleared, so it is enough to look at the last turn (`Taken.truthful`).
-/

namespace LittleMan.Session

variable {m : Type → Type} [Monad m] {σ : Type} {x : Surroundings m σ} {io : Bool} {s : Session}
  {w w' : σ} {outcome : Outcome}

/-- A run with this result, in these surroundings, may leave this session and this world. -/
def Truthful (x : Surroundings m σ) (s : Session) (w' : σ) : Except Fault Unit → Prop
  | .ok () =>
    (s.haltedLast = true ↔ s.machine.status = .halted) ∧
      (s.brokeLast = true → s.machine.status = .fetching ∧
        ∃ e, ∃ b ∈ s.breakpoints, b.holds s.machine e = true) ∧
      ¬(s.haltedLast = true ∧ s.brokeLast = true)
  | .error (.illegalWord word) =>
    s.machine.status = .fetching ∧ s.currentAddress = s.machine.pc.toNat ∧
      s.machine.word? = some word ∧ Instruction.decode word = none ∧ s.flags.strict = true ∧
      s.haltedLast = false ∧ s.brokeLast = false
  -- The text is the last piece of input that was read, without the blanks around it.
  | .error (.invalidInput text) =>
    s.machine.status = .awaitingInput ∧
      (∃ w₁ piece, x.piece w₁ = some piece ∧ w' = x.took w₁ ∧ text = Text.trimBlanks piece) ∧
      Word.ofText? text = none ∧ s.haltedLast = false ∧ s.brokeLast = false
  | .error .notReady => False

/-- A run that pauses for another reason than a halt or a breakpoint reports neither. -/
theorem truthful_paused {pause : Pause} (unhalted : s.machine.status ≠ .halted)
    (notHalt : pause ≠ .halt) (notBreak : pause ≠ .breakpoint) :
    Truthful x { s with pause } w' (.ok ()) := by
  have silent : haltedLast { s with pause } = false ∧ brokeLast { s with pause } = false := by
    simp [haltedLast, brokeLast, notHalt, notBreak]
  simpa [Truthful, silent] using unhalted

theorem Taken.truthful (taken : Taken x io s w (.ended outcome) w') (fresh : s.pause = .none) :
    Truthful x outcome.2 w' outcome.1 := by
  cases taken with
  | halted status => simpa [Truthful, haltedLast, brokeLast] using status
  | waiting status alone => exact truthful_paused (by simp [status]) (by decide) (by decide)
  | stopped status no => exact truthful_paused (by simp [status]) (by decide) (by decide)
  | unasked status withDevice no => exact truthful_paused (by simp [status]) (by decide) (by decide)
  | starved status withDevice yes asked empty =>
    exact truthful_paused (by simp [status]) (by decide) (by decide)
  | @broken e next status yes taken atBreak =>
    obtain ⟨fetching, b, set, holds⟩ := atBreakpoint_iff.1 atBreak
    have fetching : next.status = .fetching := fetching
    refine ⟨?_, fun _ => ⟨fetching, e, b, set, holds⟩, ?_⟩
    · simp [haltedLast, afterStep, fetching]
    · simp [haltedLast]
  | @faulted fault status yes refused =>
    rcases Machine.step_error_iff.1 refused with
      ⟨awaiting, -⟩ | ⟨-, strict, word, found, unknown, rfl⟩
    · cases status.symm.trans awaiting
    · refine ⟨status, rfl, found, unknown, strict, ?_, ?_⟩
      · simp [haltedLast, fresh]
      · simp [brokeLast, fresh]
  | @rejected w₁ piece fault status withDevice yes asked read refused =>
    rcases Machine.resume_error_iff.1 refused with ⟨unready, -⟩ | ⟨-, unread, rfl⟩
    · exact absurd status unready
    · exact ⟨status, ⟨w₁, piece, read, rfl, rfl⟩, unread, rfl, rfl⟩

/-- A run that starts with its pause cleared reports the truth. -/
theorem Ends.truthful (ended : Ends x io s w outcome w') (fresh : s.pause = .none) :
    Truthful x outcome.2 w' outcome.1 := by
  refine run_induction (motive := fun s _ => s.pause = .none → Truthful x outcome.2 w' outcome.1)
    ?_ ?_ ended fresh
  · intro s w taken fresh
    exact taken.truthful fresh
  · intro s w s₁ w₁ taken rest fresh
    exact rest (taken.unpaused fresh).1

/-- Every kind of run reports the truth: with or without a device, with or without a limit, under
any host that changes no session. -/
theorem run_truthful (x : Surroundings m σ) (limit : UInt64) (s : Session) (w : σ) :
    (∀ turns outcome w', x.eval (s.run x.host turns) w = (some outcome, w') →
      Truthful x outcome.2 w' outcome.1) ∧
    (∀ turns outcome w',
      x.eval (s.run (.limited x.host.note limit s) turns) w = (some outcome, w') →
        Truthful x outcome.2 w' outcome.1) ∧
    (∀ turns outcome w', x.eval (s.runWith x.host x.device turns) w = (some outcome, w') →
      Truthful x outcome.2 w' outcome.1) ∧
    ∀ turns outcome w',
      x.eval (s.runWith (.limited x.host.note limit s) x.device turns) w = (some outcome, w') →
        Truthful x outcome.2 w' outcome.1 := by
  refine ⟨?_, ?_, ?_, ?_⟩
  · intro turns outcome w' ended
    exact (ends_iff_run.2 ⟨turns, ended⟩).truthful rfl
  · intro turns outcome w' ended
    have ended : Ends (x.limited limit s) false s.start w outcome w' := ends_iff_run.2 ⟨turns, ended⟩
    exact ended.truthful rfl
  · intro turns outcome w' ended
    exact (ends_iff_runWith.2 ⟨turns, ended⟩).truthful rfl
  · intro turns outcome w' ended
    have ended : Ends (x.limited limit s) true s.start w outcome w' := ends_iff_runWith.2 ⟨turns, ended⟩
    exact ended.truthful rfl

/-- A program that takes a number and comes to a word that means nothing. An earlier run of the
session ended at a breakpoint. -/
def trapped : Session where
  machine := .ofMemory (.ofWords [901, 400])
  pause := .breakpoint
  flags := { strict := true }

theorem run_truthful_trapped :
    let x := Surroundings.buffered
    ∃ awaiting stopped faulted rejected w₁ w₂ w₃ w₄,
      x.eval (trapped.run x.host 9) {} = (some (.ok (), awaiting), w₁) ∧
      Truthful x awaiting w₁ (.ok ()) ∧
      x.eval (trapped.run (.limited x.host.note 0 trapped) 9) {} = (some (.ok (), stopped), w₂) ∧
      Truthful x stopped w₂ (.ok ()) ∧
      x.eval (trapped.runWith x.host x.device 9) { input := ["7".toList] } =
        (some (.error (.illegalWord 400), faulted), w₃) ∧
      Truthful x faulted w₃ (.error (.illegalWord 400)) ∧
      x.eval (trapped.runWith (.limited x.host.note 2 trapped) x.device 9)
        { input := [" seven".toList] } =
        (some (.error (.invalidInput "seven".toList), rejected), w₄) ∧
      Truthful x rejected w₄ (.error (.invalidInput "seven".toList)) := by
  intro x
  have free := (run_truthful x 0 trapped {}).1
  have idle := (run_truthful x 0 trapped {}).2.1
  have fed := (run_truthful x 0 trapped { input := ["7".toList] }).2.2.1
  have misfed := (run_truthful x 2 trapped { input := [" seven".toList] }).2.2.2
  have faulty : EndsWithin x true _ _ 9 trapped.start { input := ["7".toList] } :=
    .earlier (.stepped rfl rfl rfl rfl) (.earlier (.supplied rfl rfl rfl rfl rfl rfl)
      (.last (.faulted rfl rfl rfl)))
  have wrong : EndsWithin (x.limited 2 trapped) true _ _ 9 trapped.start
      { input := [" seven".toList] } :=
    .earlier (.stepped rfl rfl rfl rfl) (.last (.rejected rfl rfl rfl rfl rfl rfl))
  have faulted := faulty.runWith (Nat.le_refl 9)
  have rejected := wrong.runWith (Nat.le_refl 9)
  exact ⟨_, _, _, _, _, _, _, _, rfl, free 9 _ _ rfl, rfl, idle 9 _ _ rfl, faulted,
    fed 9 _ _ faulted, rejected, misfed 9 _ _ rejected⟩

end LittleMan.Session
