import LittleMan.Proofs.Session.Account

/-!
# Runs resumed by hand

A run with a device does what its caller could do without one: run until input is awaited, ask the
host once more, read a piece of input, supply it, and run again (`runWith_refines`). A round of a run
with a device is a run without one, but for what is written (`EndsWithin.unwritten`), and this goes
round by round. That the right values are written, and in time, is read off the turns that write at
once.
-/

namespace LittleMan.Session

section Protocol

variable {m : Type → Type} [Monad m] (host : Host m) (io : Device m)

/-- What a caller does when a run without a device has ended. If it awaits input, the host is asked
whether to go on, and the input that is read is supplied before the rest. -/
def afterRun (rest : Session → m (Option Outcome)) : Option Outcome → m (Option Outcome)
  | some (.ok (), s) => do
    if s.awaitsInput then
      let (goOn, s) ← host.mayGoOn s
      if goOn then
        match ← io.read with
        | none => return some (.ok (), s)
        | some piece =>
          match s.resume (Text.trimBlanks piece) with
          | .error fault => return some (.error fault, s)
          | .ok s => rest s
      else return some (.ok (), s)
    else return some (.ok (), s)
  | ended => return ended

/-- A run whose caller supplies the input by hand, for a number of runs of so many turns. -/
def runByHand (turns : Nat) : Nat → Session → m (Option Outcome)
  | 0, _ => return none
  | more + 1, s => do
    let ended ← s.run host turns
    afterRun host io (runByHand turns more) ended

end Protocol

variable {x : Answers} {s s' : Session} {v v' : Transcript × Nat} {t t' exchanged : Transcript}
  {outcome : Outcome} {turn' : Turn} {turns more : Nat}

/-! ## A round, but for what is written -/

/-- Where a round goes, a run without a device goes that writes nothing. -/
theorem follows_unwritten (x : Answers) :
    Follows x.surroundings.writing x.surroundings false fun v t => v.1.unwritten = t where
  goesOn s related := by
    subst related
    show x.goesOn _ s = x.goesOn (x.surroundings.settled s _).questions s
    simp
  asked s related := by
    subst related
    show (x.surroundings.asked s (x.surroundings.settled s _)).unwritten = _
    simp
  piece device := nomatch device
  took device := nomatch device
  wrote device := nomatch device

theorem EndsWithin.unwritten
    (round : EndsWithin x.surroundings.writing false outcome v' turns s v) :
    EndsWithin x.surroundings false outcome v'.1.unwritten turns s v.1.unwritten := by
  obtain ⟨_, alone, rfl⟩ := round.follows (follows_unwritten x) rfl
  exact alone

/-! ## Round by round -/

/-- A run without a device that ends without a fault says that it paused at an input if one is
awaited. -/
theorem Taken.pause_iff {m : Type → Type} [Monad m] {σ : Type} {y : Surroundings m σ} {w w' : σ}
    (taken : Taken y false s w (.ended (.ok (), s')) w') :
    s'.pause = .awaitingInput ↔ s'.awaitsInput = true := by
  cases taken with
  | halted status => simp [awaitsInput, status]
  | waiting status => simp [awaitsInput, status]
  | stopped status => simp [awaitsInput, status]
  | broken status yes taken atBreak =>
    have fetching := (atBreakpoint_iff.1 atBreak).1
    simp [awaitsInput, fetching]
  | unasked status withDevice | starved status withDevice => cases withDevice

theorem exists_pause (s : Session) : ∃ pause, s = { s with pause } := ⟨s.pause, rfl⟩

/-- By hand, the caller comes to what a run with a device has come to, but for what is written. Only
the pause may differ, at an input that the host does not let it read. -/
def ByHand (x : Answers) (rest : Session → StateM Transcript (Option Outcome)) (t : Transcript)
    (byHand : Option Outcome × Transcript) : Turn → Prop
  | .ended result => ∃ pause, byHand = (some (result.1, { result.2 with pause }), t.unwritten)
  | .more next => byHand = x.surroundings.eval (rest next) t.unwritten

section AfterRound

variable (rest : Session → StateM Transcript (Option Outcome))

theorem byHand_takeInput (t : Transcript) (awaits : s.awaitsInput = true) :
    let y := x.surroundings
    let after := y.eval (takeInput y.host y.device s) t
    ByHand x rest after.2 (y.eval (afterRun y.host y.device rest (some (.ok (), s))) t.unwritten)
      after.1 := by
  cases yes : x.goesOn t.questions s with
  | false => simp [ByHand, takeInput, afterRun, awaits, yes, paused, exists_pause]
  | true =>
    cases read : x.piece t.readings with
    | none =>
      simp [-bind_pure_comp, ByHand, takeInput, afterRun, awaits, yes, read, exists_pause]
    | some piece =>
      cases resumed : s.resume (Text.trimBlanks piece) <;>
        simp [-bind_pure_comp, ByHand, takeInput, afterRun, awaits, yes, read, resumed, exists_pause]

theorem byHand_afterRound
    (round : EndsWithin x.surroundings.writing false outcome v' turns s v) :
    let y := x.surroundings
    let after := y.eval (afterRound y.host y.device v'.2 outcome) v'.1
    ByHand x rest after.2 (y.eval (afterRun y.host y.device rest (some outcome)) v'.1.unwritten)
      after.1 := by
  obtain ⟨fault | _, last⟩ := outcome
  · simp [-bind_pure_comp, ByHand, afterRound, afterRun, exists_pause]
  · obtain ⟨s₁, v₁, taken⟩ := exists_last_turn ⟨turns, round⟩
    have awaits := taken.pause_iff
    by_cases paused : last.pause = .awaitingInput
    · have byHand := byHand_takeInput (x := x) rest (x.surroundings.settled last v') (awaits.1 paused)
      simpa [-bind_pure_comp, afterRound, paused] using byHand
    · have ready : last.awaitsInput = false := by simpa [paused] using awaits
      simp [-bind_pure_comp, ByHand, afterRound, afterRun, paused, ready, exists_pause]

end AfterRound

/-- What a run with a device comes to, it comes to by hand: in as many rounds, with as many turns in
each. -/
theorem eval_runByHand
    (ended : x.surroundings.eval (rounds x.surroundings.host x.surroundings.device turns more s) t =
      (some outcome, t')) :
    ∃ pause, x.surroundings.eval
      (runByHand x.surroundings.host x.surroundings.device turns more s) t.unwritten =
        (some (outcome.1, { outcome.2 with pause }), t'.unwritten) := by
  induction more generalizing s t with
  | zero => simp [rounds] at ended
  | succ more ih =>
    rw [eval_rounds_succ] at ended
    rcases ran : x.surroundings.writing.eval
      (s.run x.surroundings.writing.host turns) (t, s.output.size) with ⟨_ | last, v⟩
    · simp [ran] at ended
    · have round := eval_continueRun_iff.1 ran
      have alone : x.surroundings.eval (s.run x.surroundings.host turns) t.unwritten =
          (some last, v.1.unwritten) := eval_continueRun_iff.2 round.unwritten
      have byHand := byHand_afterRound
        (runByHand x.surroundings.host x.surroundings.device turns more) round
      rcases after : x.surroundings.eval
        (afterRound x.surroundings.host x.surroundings.device v.2 last) v.1 with ⟨result | next, t₁⟩
      · simp only [ran, after] at ended byHand
        cases ended
        rw [runByHand, Surroundings.eval_bind, alone]
        exact byHand
      · simp only [ran, after] at ended byHand
        rw [runByHand, Surroundings.eval_bind, alone]
        exact byHand ▸ ih ended

/-- A run with a device that ends comes to the same result, by hand, as runs without a device of
which each is resumed with an input; and the transcript accounts for its moves: the outputs were
written, the inputs were read, and one more input was read exactly if the run failed on it. -/
theorem runWith_refines
    (ended : s.runWith x.host x.device turns [] = (some outcome, exchanged)) :
    (∃ pause, s.runByHand x.host x.device turns turns [] =
      (some (outcome.1, { outcome.2 with pause }), exchanged.unwritten)) ∧
    ∃ moves, Accounted s moves (refusedInput outcome.1) outcome.2 exchanged := by
  constructor
  · exact eval_runByHand (t := []) ended
  · have ends : Ends x.surroundings true s.start [] outcome exchanged :=
      ends_iff_runWith.2 ⟨turns, ended⟩
    exact (accounted_nil s).run ends

/-- A program that asks for a number, puts it out, and asks again. -/
def echo : Session := { machine := .ofMemory (.ofWords [901, 902, 901]) }

/-- Surroundings that agree to everything, with one number to read and one text that is none. -/
def echoed : Answers where
  goesOn _ _ := true
  piece k := ["7 ".toList, "seven".toList][k]?

theorem runWith_refines_echo : ∃ last exchanged,
    echo.runWith echoed.host echoed.device 5 [] =
      (some (.error (.invalidInput "seven".toList), last), exchanged) ∧
    (∃ pause, echo.runByHand echoed.host echoed.device 5 5 [] =
      (some (.error (.invalidInput "seven".toList), { last with pause }), exchanged.unwritten)) ∧
    ∃ moves, Accounted echo moves ["seven".toList] last exchanged := by
  have turns : EndsWithin echoed.surroundings true _ _ 5 echo.start [] :=
    .earlier (.stepped rfl rfl rfl rfl) (.earlier (.supplied rfl rfl rfl rfl rfl rfl)
      (.earlier (.stepped rfl rfl rfl rfl) (.earlier (.stepped rfl rfl rfl rfl)
        (.last (.rejected rfl rfl rfl rfl rfl rfl)))))
  have ended := turns.runWith (Nat.le_refl 5)
  exact ⟨_, _, ended, runWith_refines ended⟩

end LittleMan.Session
