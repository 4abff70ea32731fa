import LittleMan.Proofs.Machine.Calls
import LittleMan.Proofs.Machine.Moves
import LittleMan.Proofs.Session.Rounds

/-!
# The course of a run

The course of a run is the list of the moves that its machine makes, turn by turn. A run that ends
has one course (`exists_course`, `Course.unique`). A turn that is not the last makes one move
(`Onward`), and the last one makes a step if it ends the run at a breakpoint, and no move otherwise
(`Final`).
-/

namespace LittleMan

open Machine (Move fetches)

/-- What a move asks of the machine. -/
def Machine.Move.call (flags : Flags) : Move → Call
  | step _ => .step flags
  | input text => .resume flags text

/-- The machine after moves, the first of the list made first. -/
def Machine.afterMoves (m : Machine) (flags : Flags) (moves : List Move) : Machine :=
  m.afterCalls (moves.map (·.call flags))

namespace Machine

variable {m next : Machine} {flags : Flags} {e : Effect} {text : Text} {moves : List Move}

@[simp] theorem afterMoves_nil : m.afterMoves flags [] = m := rfl

theorem afterMoves_append (moves more : List Move) :
    m.afterMoves flags (moves ++ more) = (m.afterMoves flags moves).afterMoves flags more := by
  simp [afterMoves, afterCalls]

theorem afterMoves_step (taken : m.step flags = .ok (e, next)) :
    m.afterMoves flags (.step e :: moves) = next.afterMoves flags moves := by
  simp [afterMoves, afterCalls, Move.call, afterCall, taken]

theorem afterMoves_input (supplied : m.resume flags text = .ok next) :
    m.afterMoves flags (.input text :: moves) = next.afterMoves flags moves := by
  simp [afterMoves, afterCalls, Move.call, afterCall, supplied]

end Machine

variable {m : Type → Type} [Monad m] {σ : Type}

/-- The move that the machine makes in one turn, if it makes one. -/
def Surroundings.move? (x : Surroundings m σ) (io : Bool) (s : Session) (w : σ) : Option Move :=
  match s.machine.status with
  | .halted => none
  | .fetching =>
    if x.goesOn s w then (s.machine.step s.flags).toOption.map fun (e, _) => .step e else none
  | .awaitingInput =>
    let asking := { s with pause := .awaitingInput }
    if io && x.goesOn asking w then do
      let text := Text.trimBlanks (← x.piece (x.asked asking w))
      (s.machine.resume s.flags text).toOption.map fun _ => .input text
    else none

namespace Session

variable {x : Surroundings m σ} {io : Bool} {s s' : Session} {w w' w₁ w₂ : σ}
  {outcome outcome₁ outcome₂ : Outcome} {moves moves₁ moves₂ earlier later : List Move}
  {move : Move} {e : Effect} {turns : Nat}

/-! ## The move of a turn -/

/-- What the machine does in the last turn of a run, and how the run ends. -/
inductive Final (s : Session) : List Move → Outcome → Prop
  | still {outcome : Outcome} (machine : outcome.2.machine = s.machine)
      (executed : outcome.2.executed = s.executed) (activity : outcome.2.activity = s.activity)
      (unbroken : outcome.2.brokeLast = true → s.brokeLast = true) : Final s [] outcome
  | broken {e : Effect} {next : Machine} (taken : s.machine.step s.flags = .ok (e, next)) :
      Final s [.step e] (.ok (), { s.afterStep e next with pause := .breakpoint })

/-- What the machine does in an earlier turn, and the session after it. -/
inductive Onward (s : Session) : Move → Session → Prop
  | step {e : Effect} {next : Machine} (taken : s.machine.step s.flags = .ok (e, next))
      (unbroken : (s.afterStep e next).atBreakpoint e = false) :
      Onward s (.step e) (s.afterStep e next)
  | input {text : Text} {next : Machine} (supplied : s.machine.resume s.flags text = .ok next) :
      Onward s (.input text) { s with machine := next }.start

section Onward
variable (onward : Onward s move s')
include onward

theorem Onward.afterMoves :
    s.machine.afterMoves s.flags (move :: moves) = s'.machine.afterMoves s'.flags moves := by
  cases onward with
  | step taken => exact Machine.afterMoves_step taken
  | input supplied => exact Machine.afterMoves_input supplied

theorem Onward.flags : s'.flags = s.flags := by
  cases onward <;> rfl

theorem Onward.breakpoints : s'.breakpoints = s.breakpoints := by
  cases onward <;> rfl

end Onward

theorem move?_of_step {next : Machine} (status : s.machine.status = .fetching)
    (yes : x.goesOn s w = true) (taken : s.machine.step s.flags = .ok (e, next)) :
    x.move? io s w = some (.step e) := by
  simp [Surroundings.move?, status, yes, taken, Except.toOption]

theorem move?_of_input {piece : Text} {next : Machine} (status : s.machine.status = .awaitingInput)
    (yes : x.goesOn { s with pause := .awaitingInput } w = true)
    (read : x.piece (x.asked { s with pause := .awaitingInput } w) = some piece)
    (accepted : s.machine.resume s.flags (Text.trimBlanks piece) = .ok next) :
    x.move? true s w = some (.input (Text.trimBlanks piece)) := by
  simp [Surroundings.move?, status, yes, read, accepted, Except.toOption]

/-- A step is a move only if the host let the run go on. -/
theorem goesOn_of_step (made : x.move? io s w = some (.step e)) : x.goesOn s w = true := by
  unfold Surroundings.move? at made
  split at made
  next => cases made
  next =>
    split at made
    next yes => exact yes
    next => cases made
  next =>
    dsimp only at made
    split at made
    next => simp [Option.bind_eq_some_iff] at made
    next => cases made

theorem Taken.final (taken : Taken x io s w (.ended outcome) w') :
    Final s (x.move? io s w).toList outcome := by
  cases taken with
  | @broken e next status yes taken atBreak =>
    exact move?_of_step status yes taken ▸ .broken taken
  | faulted status yes refused =>
    have move : x.move? io s w = none := by
      simp [Surroundings.move?, status, yes, refused, Except.toOption]
    exact move ▸ .still rfl rfl rfl id
  | rejected status withDevice yes asked read refused =>
    have move : x.move? io s w = none := by
      simp [Surroundings.move?, status, yes, ← asked, read, refused, Except.toOption]
    exact move ▸ .still rfl rfl rfl (by simp [brokeLast])
  | starved status withDevice yes asked empty =>
    have move : x.move? io s w = none := by
      simp [Surroundings.move?, status, yes, ← asked, empty]
    exact move ▸ .still rfl rfl rfl (by simp [brokeLast])
  | _ =>
    have move : x.move? io s w = none := by simp [Surroundings.move?, *]
    exact move ▸ .still rfl rfl rfl (by simp [brokeLast])

theorem Taken.onward (taken : Taken x io s w (.more s') w') :
    ∃ move, x.move? io s w = some move ∧ Onward s move s' := by
  cases taken with
  | @stepped e next status yes taken goesOn =>
    exact ⟨.step e, move?_of_step status yes taken, .step taken goesOn⟩
  | @supplied w₁ piece next status withDevice yes asked read accepted =>
    subst withDevice asked
    exact ⟨.input (Text.trimBlanks piece), move?_of_input status yes read accepted,
      .input accepted⟩

/-! ## The moves of a run -/

/-- These are the moves of a run that goes on from here, in order. -/
inductive Course (x : Surroundings m σ) (io : Bool) :
    Session → σ → List Move → Outcome → σ → Prop
  | last {s : Session} {w w' : σ} {outcome : Outcome} (taken : Taken x io s w (.ended outcome) w') :
      Course x io s w (x.move? io s w).toList outcome w'
  | more {s s' : Session} {w w₁ w' : σ} {moves : List Move} {outcome : Outcome}
      (taken : Taken x io s w (.more s') w₁) (rest : Course x io s' w₁ moves outcome w') :
      Course x io s w ((x.move? io s w).toList ++ moves) outcome w'

theorem exists_course (ended : Ends x io s w outcome w') :
    ∃ moves, Course x io s w moves outcome w' :=
  run_induction (motive := fun s w => ∃ moves, Course x io s w moves outcome w')
    (fun taken => ⟨_, .last taken⟩) (fun taken ⟨_, rest⟩ => ⟨_, .more taken rest⟩) ended

theorem Course.unique (first : Course x io s w moves₁ outcome₁ w₁)
    (second : Course x io s w moves₂ outcome₂ w₂) :
    moves₁ = moves₂ ∧ outcome₁ = outcome₂ ∧ w₁ = w₂ := by
  induction first generalizing moves₂ with
  | last taken =>
    cases second with
    | last taken' =>
      obtain ⟨same, rfl⟩ := taken.unique taken'
      cases same
      exact ⟨rfl, rfl, rfl⟩
    | more taken' => cases (taken.unique taken').1
  | more taken rest ih =>
    cases second with
    | last taken' => cases (taken.unique taken').1
    | more taken' rest' =>
      obtain ⟨same, rfl⟩ := taken.unique taken'
      cases same
      obtain ⟨rfl, rfl, rfl⟩ := ih rest'
      exact ⟨rfl, rfl, rfl⟩

theorem Course.ends (course : Course x io s w moves outcome w') : Ends x io s w outcome w' := by
  induction course with
  | last taken => exact .last taken
  | more taken rest ih => exact .earlier taken ih

/-- What holds of the moves of a last turn, and of one move and those after it if it holds of those
after it, holds of every course. -/
theorem Course.induction {motive : Session → List Move → Prop}
    (last : ∀ {s moves}, Final s moves outcome → motive s moves)
    (more : ∀ {s s' move moves}, Onward s move s' → motive s' moves → motive s (move :: moves))
    (course : Course x io s w moves outcome w') : motive s moves := by
  induction course with
  | last taken => exact last taken.final
  | more taken rest ih =>
    obtain ⟨move, made, onward⟩ := taken.onward
    rw [made]
    exact more onward (ih last)

theorem Course.machine (course : Course x io s w moves outcome w') :
    outcome.2.machine = s.machine.afterMoves s.flags moves := by
  refine course.induction
    (motive := fun s moves => outcome.2.machine = s.machine.afterMoves s.flags moves) ?_ ?_
  · intro s moves final
    cases final with
    | still machine => exact machine
    | broken taken => simp [Machine.afterMoves_step taken, afterStep]
  · intro s s' move moves onward rest
    rw [onward.afterMoves]
    exact rest

/-- The count of a run's instructions is that of the words that its moves fetched. -/
theorem Course.executed (course : Course x io s w moves outcome w') :
    outcome.2.executed = s.executed + UInt64.ofNat (fetches moves) := by
  have counted (s : Session) (e : Effect) (next : Machine) (moves : List Move) :
      (s.afterStep e next).executed + UInt64.ofNat (fetches moves) =
        s.executed + UInt64.ofNat (fetches (.step e :: moves)) := by
    cases fetched : e.fetched <;>
      simp [afterStep, fetches, Machine.Move.fetches, fetched, UInt64.add_comm, UInt64.add_assoc]
  refine course.induction (motive := fun s moves =>
    outcome.2.executed = s.executed + UInt64.ofNat (fetches moves)) ?_ ?_
  · intro s moves final
    cases final with
    | still machine executed => simp [executed]
    | @broken e next taken => simpa using counted s e next []
  · intro s s' move moves onward rest
    cases onward with
    | @step e next taken => exact rest.trans (counted s e next moves)
    | input supplied => simpa [start, fetches, Machine.Move.fetches] using rest

/-- A move of a run is made where the moves before it lead to: in its last turn, or in one before
it. -/
theorem Course.exists_session (course : Course x io s w moves outcome w')
    (split : moves = earlier ++ move :: later) :
    ∃ t : Session, t.machine = s.machine.afterMoves s.flags earlier ∧ t.flags = s.flags ∧
      t.breakpoints = s.breakpoints ∧
      ((∃ t', Onward t move t') ∨ (later = [] ∧ Final t [move] outcome)) := by
  refine course.induction (motive := fun s moves => ∀ earlier, moves = earlier ++ move :: later →
    ∃ t : Session, t.machine = s.machine.afterMoves s.flags earlier ∧ t.flags = s.flags ∧
      t.breakpoints = s.breakpoints ∧
      ((∃ t', Onward t move t') ∨ (later = [] ∧ Final t [move] outcome))) ?_ ?_ earlier split
  · intro s moves final earlier split
    cases final with
    | still => simp at split
    | broken taken =>
      obtain ⟨rfl, rfl, rfl⟩ : earlier = [] ∧ move = _ ∧ later = [] := by
        simpa [List.singleton_eq_append_iff] using split
      exact ⟨s, rfl, rfl, rfl, .inr ⟨rfl, .broken taken⟩⟩
  · intro s s' first moves onward rest earlier split
    cases earlier with
    | nil =>
      rw [List.nil_append, List.cons.injEq] at split
      obtain ⟨rfl, -⟩ := split
      exact ⟨s, rfl, rfl, rfl, .inl ⟨s', onward⟩⟩
    | cons _ earlier =>
      rw [List.cons_append, List.cons.injEq] at split
      obtain ⟨rfl, split⟩ := split
      obtain ⟨t, machine, flags, breakpoints, made⟩ := rest earlier split
      exact ⟨t, by rw [machine, onward.afterMoves], flags.trans onward.flags,
        breakpoints.trans onward.breakpoints, made⟩

theorem Course.exists_step (course : Course x io s w moves outcome w')
    (split : moves = earlier ++ .step e :: later) :
    ∃ next, (s.machine.afterMoves s.flags earlier).step s.flags = .ok (e, next) := by
  obtain ⟨t, machine, flags, -, made⟩ := course.exists_session split
  rw [← machine, ← flags]
  rcases made with ⟨t', onward⟩ | ⟨-, final⟩
  · cases onward with
    | step taken => exact ⟨_, taken⟩
  · cases final with
    | broken taken => exact ⟨_, taken⟩

end Session
end LittleMan
