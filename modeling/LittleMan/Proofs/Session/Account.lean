import LittleMan.Proofs.Machine.Moves
import LittleMan.Proofs.Machine.Step
import LittleMan.Proofs.Session.Transcript

/-!
# What a run with a device exchanges

The transcript of a run accounts for the moves of its machine: what they put out was written, once
and in order, before the host was asked again; what they took in was read, when it was awaited and
the host had agreed. One turn extends the account by at most a move (`Accounted.turn`), and so does
a run, turn by turn (`Accounted.run`).
-/

namespace LittleMan.Session

open Machine (Move Moves outputs inputs fetches)

variable {first s s' : Session} {moves : List Move} {refused : List Text} {t t' : Transcript}
  {x : Answers} {e : Exchange} {outcome : Outcome}

/-- These moves brought the first session here, and what they put out was written. -/
structure Reached (first : Session) (moves : List Move) (s : Session) (t : Transcript) : Prop where
  moved : Moves first.flags first.machine moves s.machine
  output : s.output.toList = first.output.toList ++ outputs moves
  executed : s.executed = first.executed + UInt64.ofNat (fetches moves)
  flags : s.flags = first.flags
  written : t.written = outputs moves

/-- What an exchange shows of the moves of its run, given what was exchanged before it. -/
def Due (first : Session) (moves : List Move) (before : Transcript) : Exchange → Prop
  -- The host sees a session that some of the moves brought about, with nothing left to write or
  -- to take in.
  | .asked seen _ => ∃ earlier later, moves = earlier ++ later ∧
      Reached first earlier seen before ∧ before.tokens = inputs earlier
  -- A value is written after the step that put it out, and after the values of earlier steps.
  | .wrote value => ∃ earlier effect later, moves = earlier ++ .step effect :: later ∧
      effect.output = some value ∧ before.written = outputs earlier ∧
      before.tokens = inputs earlier
  -- The host has just agreed, on a session that awaits input.
  | .took _ => ∃ earlier seen, before = earlier ++ [.asked seen true] ∧ seen.awaitsInput = true

/-- Each exchange of the transcript is due. -/
def AllDue (first : Session) (moves : List Move) (t : Transcript) : Prop :=
  ∀ before e after, t = before ++ e :: after → Due first moves before e

/-- The text that was refused as input. -/
def refusedInput : Except Fault Unit → List Text
  | .error (.invalidInput text) => [text]
  | _ => []

theorem Due.extend (due : Due first moves t e) (more : List Move) :
    Due first (moves ++ more) t e := by
  cases e with
  | asked seen goOn =>
    obtain ⟨earlier, later, rfl, reached⟩ := due
    exact ⟨earlier, later ++ more, by simp, reached⟩
  | wrote value =>
    obtain ⟨earlier, effect, later, rfl, put⟩ := due
    exact ⟨earlier, effect, later ++ more, by simp, put⟩
  | took piece => exact due

theorem allDue_nil : AllDue first moves [] := by
  intro before e after split
  simp at split

theorem AllDue.extend (due : AllDue first moves t) (more : List Move) :
    AllDue first (moves ++ more) t :=
  fun before e after split => (due before e after split).extend more

/-- One more exchange is due if it is due after all the others. -/
theorem AllDue.snoc (due : AllDue first moves t) (last : Due first moves t e) :
    AllDue first moves (t ++ [e]) := by
  intro before e' after split
  rcases List.eq_nil_or_concat after with rfl | ⟨after, e'', rfl⟩
  · obtain ⟨rfl, same⟩ := List.append_inj' split rfl
    cases same
    exact last
  · rw [List.concat_eq_append, ← List.cons_append, ← List.append_assoc] at split
    obtain ⟨same, -⟩ := List.append_inj' split rfl
    exact due before e' after same

/-- Where a run has got: its moves, the input that was refused, and that every exchange was due. -/
structure Accounted (first : Session) (moves : List Move) (refused : List Text) (s : Session)
    (t : Transcript) : Prop extends Reached first moves s t where
  tokens : t.tokens = inputs moves ++ refused
  due : AllDue first moves t

theorem accounted_nil (s : Session) : Accounted s [] [] s.start [] where
  moved := .nil
  output := by simp [start]
  executed := by simp [start]
  flags := rfl
  written := rfl
  tokens := rfl
  due := allDue_nil

/-- The account is of the machine, the output, the count and the flags only. -/
theorem Accounted.same (here : Accounted first moves refused s t)
    (machine : s'.machine = s.machine) (output : s'.output = s.output)
    (executed : s'.executed = s.executed) (flags : s'.flags = s.flags) :
    Accounted first moves refused s' t where
  moved := machine ▸ here.moved
  output := output ▸ here.output
  executed := executed ▸ here.executed
  flags := flags ▸ here.flags
  written := here.written
  tokens := here.tokens
  due := here.due

/-- The host may be asked at any time. -/
theorem Accounted.asked (here : Accounted first moves [] s t) (pause : Pause) (goOn : Bool) :
    Accounted first moves [] s (t ++ [.asked { s with pause } goOn]) where
  toReached := { here.toReached with written := by simpa using here.written }
  tokens := by simpa using here.tokens
  due := by
    have seen : Accounted first moves [] { s with pause } t := here.same rfl rfl rfl rfl
    exact here.due.snoc
      ⟨moves, [], by simp, seen.toReached, by simpa using here.tokens⟩

/-- A step, after the host was asked. -/
theorem Accounted.stepped {effect : Effect} {next : Machine} (here : Accounted first moves [] s t)
    (taken : s.machine.step s.flags = .ok (effect, next)) :
    Accounted first (moves ++ [.step effect]) [] (s.afterStep effect next)
      (x.surroundings.delivered true effect (x.surroundings.asked s t)) where
  moved := here.moved.step (here.flags ▸ taken)
  output := by simp [afterStep, here.output]
  executed := by
    cases fetched : effect.fetched <;> simp [afterStep, here.executed, fetched, UInt64.add_assoc]
  flags := here.flags
  written := by simp [Answers.delivered_eq, here.written]
  tokens := by simp [Answers.delivered_eq, here.tokens]
  due := by
    have asked := here.asked s.pause (x.goesOn t.questions s)
    have due := asked.due.extend [.step effect]
    rw [Answers.delivered_eq]
    cases output : effect.output with
    | none => simpa using due
    | some value =>
      have wrote : Due first (moves ++ [.step effect]) (x.surroundings.asked s t) (.wrote value) :=
        ⟨moves, effect, [], rfl, output, asked.written, by simpa using asked.tokens⟩
      exact due.snoc wrote

/-- The device may be read once the host has agreed on a session that awaits input. -/
theorem Accounted.took {t₁ : Transcript} (here : Accounted first moves [] s t)
    (awaits : s.machine.status = .awaitingInput)
    (yes : x.surroundings.goesOn { s with pause := .awaitingInput } t = true)
    (asked : t₁ = x.surroundings.asked { s with pause := .awaitingInput } t) :
    Accounted first moves ((x.piece t₁.readings).map Text.trimBlanks).toList s
      (x.surroundings.took t₁) := by
  rw [Answers.surroundings_goesOn] at yes
  rw [Answers.surroundings_asked, yes] at asked
  subst asked
  have asked := here.asked .awaitingInput true
  have took : Due first moves (t ++ [.asked { s with pause := .awaitingInput } true])
      (.took (x.piece t.readings)) :=
    ⟨t, _, rfl, by simp [awaitsInput, awaits]⟩
  exact {
    asked.toReached with
    written := by simpa using asked.written
    tokens := by simp [here.tokens]
    due := by simpa using asked.due.snoc took }

/-- The machine takes in what was read. -/
theorem Accounted.supplied {text : Text} {next : Machine} (here : Accounted first moves [text] s t)
    (accepted : s.machine.resume s.flags text = .ok next) :
    Accounted first (moves ++ [.input text]) [] { s with machine := next } t where
  moved := here.moved.input (here.flags ▸ accepted)
  output := by simp [here.output]
  executed := by simp [here.executed]
  flags := here.flags
  written := by simp [here.written]
  tokens := by simp [here.tokens]
  due := here.due.extend _

/-- A turn that does not end the run adds a move to the account. -/
theorem Accounted.turn (here : Accounted first moves [] s t)
    (taken : Taken x.surroundings true s t (.more s') t') :
    ∃ move, Accounted first (moves ++ [move]) [] s' t' := by
  cases taken with
  | stepped status yes taken goesOn => exact ⟨_, here.stepped taken⟩
  | supplied status withDevice yes asked read accepted =>
    have took := here.took status yes asked
    rw [Answers.surroundings_piece] at read
    rw [read] at took
    exact ⟨_, (took.supplied accepted).same rfl rfl rfl rfl⟩

/-- The account at the end of a run, whichever way it ended. -/
theorem Accounted.ended (here : Accounted first moves [] s t)
    (taken : Taken x.surroundings true s t (.ended outcome) t') :
    ∃ all, Accounted first all (refusedInput outcome.1) outcome.2 t' := by
  cases taken with
  | halted status => exact ⟨moves, here.same rfl rfl rfl rfl⟩
  | waiting status alone => cases alone
  | stopped status no => exact ⟨moves, (here.asked s.pause _).same rfl rfl rfl rfl⟩
  | @faulted fault status yes stuck =>
    have unread : refusedInput (.error fault) = [] := by
      rcases Machine.step_error_iff.1 stuck with ⟨-, rfl⟩ | ⟨-, -, word, -, -, rfl⟩ <;> rfl
    exact ⟨moves, unread ▸ (here.asked s.pause _).same rfl rfl rfl rfl⟩
  | broken status yes taken atBreak => exact ⟨_, (here.stepped taken).same rfl rfl rfl rfl⟩
  | unasked status withDevice no =>
    exact ⟨moves, (here.asked .awaitingInput _).same rfl rfl rfl rfl⟩
  | starved status withDevice yes asked empty =>
    have took := here.took status yes asked
    rw [Answers.surroundings_piece] at empty
    rw [empty] at took
    exact ⟨moves, took.same rfl rfl rfl rfl⟩
  | rejected status withDevice yes asked read stuck =>
    have took := here.took status yes asked
    rw [Answers.surroundings_piece] at read
    rw [read] at took
    rcases Machine.resume_error_iff.1 stuck with ⟨unready, -⟩ | ⟨-, -, rfl⟩
    · exact absurd status unready
    · exact ⟨moves, took.same rfl rfl rfl rfl⟩

/-- A run that ends is accounted for, if what came before it was. -/
theorem Accounted.run (here : Accounted first moves [] s t)
    (ended : Ends x.surroundings true s t outcome t') :
    ∃ all, Accounted first all (refusedInput outcome.1) outcome.2 t' := by
  refine run_induction (motive := fun s t => ∀ moves, Accounted first moves [] s t →
    ∃ all, Accounted first all (refusedInput outcome.1) outcome.2 t') ?_ ?_ ended moves here
  · intro s t taken moves here
    exact here.ended taken
  · intro s t s₁ t₁ taken rest moves here
    obtain ⟨move, there⟩ := here.turn taken
    exact rest _ there

end LittleMan.Session
