import LittleMan.Proofs.CommandLine.Console
import LittleMan.Proofs.Machine.Play

/-!
# Running a program on a terminal

A program that is run on a terminal writes what its machine puts out when it is given the numbers
among the inputs, and the command succeeds exactly if the machine halts (`respond_run`).
-/

namespace LittleMan.CommandLine

open Console
open Machine (Plays)
open Session (Taken run_induction)

/-- The inputs among pieces of text: what is a number once it is trimmed. -/
def numbers (pieces : List Text) : List Text :=
  (pieces.map Text.trimBlanks).filter fun t => (Word.ofText? t).isSome

/-- How a program is simulated under these settings. -/
def Settings.flags (settings : Settings) : Flags :=
  { strict := settings.strict, policy := settings.policy.getD .unchecked }

/-- How many words may be fetched. -/
def Settings.fetchLimit (settings : Settings) : Option Nat := settings.limit.map UInt64.toNat

variable {level : Level} {settings : Settings} {fetched : Nat} {s s' : Session}
  {w w' : List Text × Console} {outcome : Outcome} {lines : List Text} {last : Machine}

/-! ## What is left of the input -/

theorem numbers_append (one two : List Text) :
    numbers (one ++ two) = numbers one ++ numbers two := by
  simp [numbers]

theorem numbers_cons_of_word {piece : Text} {value : Word} (rest : List Text)
    (read : Word.ofText? (Text.trimBlanks piece) = some value) :
    numbers (piece :: rest) = Text.trimBlanks piece :: numbers rest := by
  simp [numbers, read]

theorem numbers_cons_of_none {piece : Text} (rest : List Text)
    (unread : Word.ofText? (Text.trimBlanks piece) = none) :
    numbers (piece :: rest) = numbers rest := by
  simp [numbers, unread]

/-- Whether a piece of input is a number does not depend on whether its line was trimmed before. -/
theorem numbers_inputsOfText (t : Text) : numbers (inputsOfText t) = numbers (Text.lines t) := by
  unfold inputsOfText
  induction Text.lines t with
  | nil => rfl
  | cons line rest ih =>
    by_cases blank : Text.trimBlanks line = []
    · have unread : Word.ofText? (Text.trimBlanks line) = none := by rw [blank]; rfl
      rw [numbers_cons_of_none rest unread, ← ih]
      simp [inputOfLine?, blank]
    · simp only [List.filterMap_cons, inputOfLine?, if_neg blank]
      simp only [numbers, List.map_cons, List.filter_cons, Text.trimBlanks_trimBlanks] at ih ⊢
      rw [ih]

/-! ## What a turn does to the terminal -/

theorem delivered_queue (e : Effect) :
    ((surroundings level settings).delivered true e w).1 = w.1 := by
  cases output : e.output <;> simp [Surroundings.delivered, output, surroundings]

theorem delivered_pieces (e : Effect) :
    ((surroundings level settings).delivered true e w).2.pieces = w.2.pieces := by
  cases output : e.output <;> simp [Surroundings.delivered, output, surroundings]

theorem delivered_lines (e : Effect) :
    ((surroundings level settings).delivered true e w).2.lines =
      w.2.lines ++ e.output.toList.map Word.text := by
  cases output : e.output <;> simp [Surroundings.delivered, output, surroundings]

theorem took_lines : ((surroundings level settings).took w).2.lines = w.2.lines := by
  obtain ⟨_ | ⟨input, queue⟩, c⟩ := w <;> rfl

/-- The first piece that is left is taken. -/
theorem took_pieces {piece : Text} (read : (surroundings level settings).piece w = some piece) :
    let after := (surroundings level settings).took w
    w.1 ++ w.2.pieces = piece :: (after.1 ++ after.2.pieces) := by
  obtain ⟨_ | ⟨input, queue⟩, c⟩ := w
  · obtain ⟨rest, pieces⟩ := List.head?_eq_some_iff.1 read
    simp only [List.nil_append] at pieces
    simp [surroundings, pieces]
  · cases read
    rfl

/-! ## Keeping step -/

/-- A session keeps step with a machine of which so many words were fetched. Without a limit its
count may have wrapped. -/
structure InStep (settings : Settings) (fetched : Nat) (s : Session) : Prop where
  flags : s.flags = settings.flags
  breakpoints : s.breakpoints = []
  executed : settings.limit.isSome → s.executed.toNat = fetched

theorem InStep.goesOn_iff (here : InStep settings fetched s) (pause : Pause) :
    (surroundings level settings).goesOn { s with pause } w = true ↔
      settings.fetchLimit.any (· ≤ fetched) = false := by
  have executed := here.executed
  cases limit : settings.limit with
  | none => simp [surroundings, Settings.fetchLimit, limit]
  | some most =>
    rw [limit] at executed
    simp [surroundings, Settings.fetchLimit, limit, UInt64.lt_iff_toNat_lt, executed rfl]

theorem InStep.afterStep {e : Effect} {next : Machine} (here : InStep settings fetched s)
    (yes : (surroundings level settings).goesOn s w = true) :
    InStep settings (if e.fetched.isSome then fetched + 1 else fetched) (s.afterStep e next) where
  flags := here.flags
  breakpoints := here.breakpoints
  executed := by
    intro limited
    obtain ⟨most, limit⟩ := Option.isSome_iff_exists.1 limited
    have below : s.executed.toNat < most.toNat := by
      simpa [surroundings, limit, UInt64.lt_iff_toNat_lt] using yes
    have small := most.toNat_lt
    have executed := here.executed limited
    cases word : e.fetched with
    | none => simpa [Session.afterStep, word] using executed
    | some address =>
      have wraps : (s.executed + 1).toNat = (s.executed.toNat + 1) % 18446744073709551616 :=
        UInt64.toNat_add _ _
      simp only [Session.afterStep, word, Option.isSome_some, if_true, wraps]
      omega

/-! ## A run in step with the machine -/

/-- From here on, the machine with the numbers that are left comes to its last state, and what it
puts out on the way makes up the lines. -/
def Reaches (settings : Settings) (lines : List Text) (last : Machine) (s : Session)
    (w : List Text × Console) : Prop :=
  ∀ fetched, InStep settings fetched s → ∃ outs,
    lines = w.2.lines ++ outs.map Word.text ∧
    Plays settings.flags settings.fetchLimit fetched s.machine (numbers (w.1 ++ w.2.pieces)) outs
      last

/-- A turn within a run is a move of the machine. -/
theorem reaches_of_more (taken : Taken (surroundings level settings) true s w (.more s') w')
    (rest : Reaches settings lines last s' w') : Reaches settings lines last s w := by
  intro fetched here
  cases taken with
  | @stepped e next status yes taken goesOn =>
    obtain ⟨outs, written, played⟩ := rest _ (here.afterStep yes)
    refine ⟨e.output.toList ++ outs, ?_, ?_⟩
    · rw [written, delivered_lines]
      simp [surroundings]
    · rw [delivered_queue, delivered_pieces] at played
      exact .stepped status ((here.goesOn_iff s.pause).1 yes) (here.flags ▸ taken) played
  | @supplied w₁ piece next status withDevice yes asked read accepted =>
    obtain rfl : w₁ = w := asked
    obtain ⟨-, value, number, -⟩ := Machine.resume_ok_iff.1 accepted
    obtain ⟨outs, written, played⟩ := rest fetched ⟨here.flags, here.breakpoints, here.executed⟩
    refine ⟨outs, ?_, ?_⟩
    · rw [written, took_lines]
    · rw [took_pieces read, numbers_cons_of_word _ number]
      exact .resumed status ((here.goesOn_iff _).1 yes) (here.flags ▸ accepted) played

/-- A run that ends at a text that is no number has not moved the machine since. -/
theorem reaches_of_invalidInput {input : Text}
    (taken : Taken (surroundings level settings) true s w
      (.ended (.error (.invalidInput input), s')) w')
    (rest : Reaches settings lines last s' w') : Reaches settings lines last s w := by
  intro fetched here
  cases taken with
  | faulted status yes refused =>
    rcases Machine.step_error_iff.1 refused with ⟨-, same⟩ | ⟨-, -, word, -, -, same⟩ <;> cases same
  | @rejected w₁ piece _ status withDevice yes asked read refused =>
    obtain rfl : w₁ = w := asked
    obtain ⟨outs, written, played⟩ := rest fetched ⟨here.flags, here.breakpoints, here.executed⟩
    refine ⟨outs, ?_, ?_⟩
    · rw [written, took_lines]
    · rcases Machine.resume_error_iff.1 refused with ⟨-, same⟩ | ⟨-, unread, -⟩
      · cases same
      · rw [took_pieces read, numbers_cons_of_none _ unread]
        exact played

/-- A run that ends in another way leaves the machine where it stops. -/
theorem reaches_of_ended
    (taken : Taken (surroundings level settings) true s w (.ended outcome) w')
    (valid : ∀ input, outcome.1 ≠ .error (.invalidInput input)) :
    Reaches settings w'.2.lines outcome.2.machine s w := by
  intro fetched here
  have stops {pause : Pause}
      (no : (surroundings level settings).goesOn { s with pause } w = false) :
      settings.fetchLimit.any (· ≤ fetched) = true := by
    rw [← Bool.not_eq_false, ← here.goesOn_iff pause, no]
    exact Bool.false_ne_true
  cases taken with
  | halted status => exact ⟨[], by simp, .halted (Machine.status_halted.1 status)⟩
  | waiting status alone => cases alone
  | stopped status no => exact ⟨[], by simp [surroundings], .limited (stops no)⟩
  | faulted status yes refused =>
    exact ⟨[], by simp [surroundings], .refused status (here.flags ▸ refused)⟩
  | broken status yes taken atBreak =>
    simp [Session.atBreakpoint, Session.afterStep, here.breakpoints] at atBreak
  | unasked status withDevice no => exact ⟨[], by simp [surroundings], .limited (stops no)⟩
  | @starved w₁ status withDevice yes asked empty =>
    obtain rfl : w₁ = w := asked
    have none_left : w₁.1 ++ w₁.2.pieces = [] := List.head?_eq_none_iff.1 empty
    refine ⟨[], by simp [took_lines], ?_⟩
    rw [none_left]
    exact .exhausted status
  | rejected status withDevice yes asked read refused =>
    rcases Machine.resume_error_iff.1 refused with ⟨unready, -⟩ | ⟨-, -, rfl⟩
    · exact absurd status unready
    · exact absurd rfl (valid _)

/-- A run on a terminal, with what comes after it if it ends at a text that is no number. -/
theorem reaches_of_run {turns : Nat}
    (ended : (surroundings level settings).eval (s.runWith (surroundings level settings).host
      (surroundings level settings).device turns) w = (some outcome, w'))
    (rest : ∀ input, outcome.1 = .error (.invalidInput input) →
      Reaches settings lines last outcome.2 w')
    (final : (∀ input, outcome.1 ≠ .error (.invalidInput input)) →
      lines = w'.2.lines ∧ last = outcome.2.machine) :
    Reaches settings lines last s w := by
  have started : Reaches settings lines last s.start w := by
    refine run_induction (motive := Reaches settings lines last) ?_ ?_
      (Session.ends_iff_runWith.2 ⟨turns, ended⟩)
    · intro s w taken
      by_cases invalid : ∃ input, outcome.1 = .error (.invalidInput input)
      · obtain ⟨input, invalid⟩ := invalid
        obtain ⟨result, s'⟩ := outcome
        cases invalid
        exact reaches_of_invalidInput taken (rest input rfl)
      · have valid : ∀ input, outcome.1 ≠ .error (.invalidInput input) :=
          fun input same => invalid ⟨input, same⟩
        obtain ⟨rfl, rfl⟩ := final valid
        exact reaches_of_ended taken valid
    · intro s w s₁ w₁ taken reaches
      exact reaches_of_more taken reaches
  intro fetched here
  exact started fetched ⟨here.flags, here.breakpoints, here.executed⟩

/-- A run that ends at a text that is no number is followed by another one. -/
theorem eval_runOn_succ {m : Type → Type} [Monad m] {σ : Type} (x : Surroundings m σ)
    (turns tries : Nat) (s : Session) (w : σ) :
    x.eval (runOn x.host x.device turns (tries + 1) s) w =
      match x.eval (s.runWith x.host x.device turns) w with
      | (some (.error (.invalidInput _), s'), w') => x.eval (runOn x.host x.device turns tries s') w'
      | ended => ended := by
  rcases ran : x.eval (s.runWith x.host x.device turns) w with ⟨result, w'⟩
  rw [runOn, Surroundings.eval_bind, ran]
  split
  next input s' found =>
    obtain rfl : result = _ := found
    rw [Surroundings.eval_bind, Surroundings.eval_note]
  next other =>
    rw [Surroundings.eval_pure]
    split
    next input s' _ same =>
      cases same
      exact absurd rfl (other input s')
    next => rfl

theorem reaches_of_runOn {turns tries : Nat}
    (ended : (surroundings level settings).eval (runOn (surroundings level settings).host
      (surroundings level settings).device turns tries s) w = (some outcome, w')) :
    Reaches settings w'.2.lines outcome.2.machine s w := by
  induction tries generalizing s w with
  | zero => cases ended
  | succ tries ih =>
    rw [eval_runOn_succ] at ended
    rcases ran : (surroundings level settings).eval (s.runWith (surroundings level settings).host
      (surroundings level settings).device turns) w with ⟨result, w₁⟩
    rw [ran] at ended
    split at ended
    next input s₁ w₂ same =>
      cases same
      exact reaches_of_run ran (fun _ _ => ih ended) fun valid => absurd rfl (valid input)
    next other =>
      cases ended
      refine reaches_of_run ran (fun input invalid => ?_) fun _ => ⟨rfl, rfl⟩
      obtain ⟨result, s'⟩ := outcome
      cases invalid
      exact absurd rfl (other input s' w')

theorem exists_last_turn_of_runOn {turns tries : Nat}
    (ended : (surroundings level settings).eval (runOn (surroundings level settings).host
      (surroundings level settings).device turns tries s) w = (some outcome, w')) :
    ∃ s₁ w₁, Taken (surroundings level settings) true s₁ w₁ (.ended outcome) w' := by
  induction tries generalizing s w with
  | zero => cases ended
  | succ tries ih =>
    rw [eval_runOn_succ] at ended
    split at ended
    next => exact ih ended
    next ran => exact Session.exists_last_turn (Session.ends_iff_runWith.2 ⟨turns, ended⟩)

/-! ## The command -/

section Command
variable (path source : Text) (c : Console)

theorem conclude_apply (object : Assembly.ObjectFile) (outcome : Outcome) :
    conclude terminal level path source object settings outcome c =
      (outcome.1.isOk && outcome.2.haltedLast, c) := by
  obtain ⟨fault | _, s⟩ := outcome
  · simp only [conclude, bind_apply, logLine_apply, logLines_apply, pure_apply]
    rfl
  · simp only [conclude]
    split
    next halted =>
      simp only [bind_apply, note_apply, pure_apply, halted]
      rfl
    next running =>
      rw [Bool.not_eq_true] at running
      split <;>
        simp only [bind_apply, logLine_apply, pure_apply, running, Bool.and_false]

theorem performRun_of_error {e : Assembly.Error}
    (failed : (Assembly.assemble { strict := settings.strict, symbols := true } c.source).result =
      .error e) (turns : Nat) :
    performRun terminal level turns path settings c = (some false, c) := by
  simp only [performRun, bind_apply, load_apply, failed, pure_apply]

/-- The session that a program is run from. -/
def sessionOf (settings : Settings) (object : Assembly.ObjectFile) : Session :=
  .load object { flags := settings.flags }

theorem performRun_of_ok {object : Assembly.ObjectFile} {turns : Nat} {succeeded : Bool}
    {after : Console}
    (built : (Assembly.assemble { strict := settings.strict, symbols := true } c.source).result =
      .ok object)
    (ended : performRun terminal level turns path settings c = (some succeeded, after)) :
    ∃ outcome queue, (surroundings level settings).eval
        (runOn (terminalHost terminal level settings) (terminalDevice terminal) turns turns
          (sessionOf settings object)) (settings.inputs, c) = (some outcome, queue, after) ∧
      succeeded = (outcome.1.isOk && outcome.2.haltedLast) := by
  simp only [performRun, bind_apply, load_apply, built, note_apply] at ended
  rcases ran : (runOn (terminalHost terminal level settings) (terminalDevice terminal) turns turns
    (sessionOf settings object)).run settings.inputs c with ⟨⟨result, queue⟩, c'⟩
  rw [sessionOf, Settings.flags] at ran
  rw [ran] at ended
  cases result with
  | none => cases ended
  | some outcome =>
    simp only [map_apply, conclude_apply] at ended
    cases ended
    exact ⟨outcome, queue, eval_eq ran, rfl⟩

end Command

theorem performRun_of_respond {arguments : List Text} {path : Text} {turns : Nat} {ending : Ending}
    {c after : Console} (asked : Request.ofArguments arguments = .ok (.perform .run path settings))
    (ended : respond terminal turns arguments c = (some ending, after)) :
    ∃ succeeded, performRun terminal (levelOf settings.verbosity) turns path settings c =
        (some succeeded, after) ∧
      ending = if succeeded then .success else .failure := by
  simp only [respond, asked, bind_apply, perform, pure_apply] at ended
  rcases performed : performRun terminal (levelOf settings.verbosity) turns path settings c
    with ⟨_ | succeeded, c'⟩
  · rw [performed] at ended
    cases ended
  · rw [performed] at ended
    cases ended
    exact ⟨succeeded, rfl, rfl⟩

/-- What a run command writes and whether it succeeds, by the machine alone: nothing and no, when
the program does not assemble; else what the machine puts out when it is given the numbers among the
inputs, and whether it halts. -/
theorem respond_run {arguments : List Text} {path source stdin : Text} {turns : Nat}
    {ending : Ending} {after : Console}
    (asked : Request.ofArguments arguments = .ok (.perform .run path settings))
    (ended : respond terminal turns arguments { source, pieces := inputsOfText stdin } =
      (some ending, after)) :
    match (Assembly.assemble { strict := settings.strict, symbols := true } source).result with
    | .error _ => after.lines = [] ∧ ending = .failure
    | .ok object => ∃ outs last,
        Plays settings.flags settings.fetchLimit 0 (.ofMemory object.words)
          (numbers (settings.inputs ++ Text.lines stdin)) outs last ∧
        after.lines = outs.map Word.text ∧
        ending = if last.halted then .success else .failure := by
  obtain ⟨succeeded, performed, rfl⟩ := performRun_of_respond asked ended
  split
  next e failed =>
    rw [performRun_of_error path { source, pieces := inputsOfText stdin } failed] at performed
    cases performed
    exact ⟨rfl, rfl⟩
  next object built =>
    obtain ⟨outcome, queue, ran, rfl⟩ :=
      performRun_of_ok path { source, pieces := inputsOfText stdin } built performed
    have fresh : InStep settings 0 (sessionOf settings object) := ⟨rfl, rfl, fun _ => rfl⟩
    obtain ⟨outs, written, played⟩ := reaches_of_runOn ran 0 fresh
    obtain ⟨s, w, taken⟩ := exists_last_turn_of_runOn ran
    rw [numbers_append, numbers_inputsOfText, ← numbers_append] at played
    exact ⟨outs, outcome.2.machine, played, written, by rw [taken.halted_iff]⟩

/-- A command line with an input that is no number, and one that is. -/
def doubleArguments : List Text :=
  ["run", "--input", "x", "double.lmc", "-i", "21", "--limit=9"].map String.toList

/-- A program that doubles its input. -/
def doubleSource : Text := "INP\nSTA N\nADD N\nOUT\nHLT\nN DAT".toList

theorem respond_run_double : ∃ object outs last,
    respond terminal 9 doubleArguments
        { source := doubleSource, pieces := inputsOfText "7".toList } =
      (some .success, { source := doubleSource, pieces := ["7".toList], lines := ["42".toList] }) ∧
    (Assembly.assemble { symbols := true } doubleSource).result = .ok object ∧
    Plays {} (some 9) 0 (.ofMemory object.words)
      (numbers ["x".toList, "21".toList, "7".toList]) outs last ∧
    outs.map Word.text = ["42".toList] ∧ last.halted = true := by
  have ok : (Assembly.assemble { symbols := true } doubleSource).result.isOk = true := by
    decide +kernel
  have asked : Request.ofArguments doubleArguments = .ok (.perform .run "double.lmc".toList
      { path := some "double.lmc".toList, inputs := ["x".toList, "21".toList], limit := some 9 }) :=
    rfl
  have ended : @Eq (Option Ending × Console)
      (respond terminal 9 doubleArguments
        { source := doubleSource, pieces := inputsOfText "7".toList })
      (some .success,
        { source := doubleSource, pieces := ["7".toList], lines := ["42".toList] }) := by
    decide +kernel
  have performed := respond_run asked ended
  cases built : (Assembly.assemble { symbols := true } doubleSource).result with
  | error e =>
    rw [built] at ok
    cases ok
  | ok object =>
    rw [built] at performed
    obtain ⟨outs, last, played, written, succeeded⟩ := performed
    refine ⟨object, outs, last, ended, rfl, played, written.symm, ?_⟩
    cases halted : last.halted with
    | true => rfl
    | false => rw [halted] at succeeded; cases succeeded

end LittleMan.CommandLine
