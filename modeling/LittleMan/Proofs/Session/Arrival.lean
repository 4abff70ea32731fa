import LittleMan.Proofs.Session.Course

/-!
# Breakpoints at an address

Breakpoints are tested after steps. A step that arrives at the address of a breakpoint is the last
move of its run. An input that arrives there is not, and the run executes the instruction at the
breakpoint (`runWith_heeds_arrival`, `runWith_passes_arrival`).
-/

namespace LittleMan

open Machine (Move fetches)

/-- The machine is about to fetch from an address. -/
def Machine.ReadyAt (m : Machine) (a : Nat) : Prop := m.status = .fetching ∧ m.pc.toNat = a

namespace Session

/-- How far a run heeds a breakpoint at an address, whose moves from a session on are these. -/
structure Heeds (s : Session) (a : Nat) (moves : List Move) (outcome : Outcome) : Prop where
  /-- A step that arrives there is the last move, and the run ends at a breakpoint. -/
  arrival : ∀ earlier e later, moves = earlier ++ .step e :: later →
    (s.machine.afterMoves s.flags (earlier ++ [.step e])).ReadyAt a →
    later = [] ∧ outcome.1 = .ok () ∧ outcome.2.brokeLast = true
  /-- The instruction there is executed only as the first move, or directly after the input that an
  instruction in the cell before it asked for. -/
  executed : ∀ earlier e later, moves = earlier ++ .step e :: later → e.fetched = some a →
    earlier = [] ∨ ∃ front text, earlier = front ++ [.input text] ∧
      (Machine.pastInput (s.machine.afterMoves s.flags front).pc).toNat = a
  /-- No run ends at a breakpoint directly after an input. -/
  broke : outcome.2.brokeLast = true → ∃ front e, moves = front ++ [.step e]

variable {m : Type → Type} [Monad m] {σ : Type} {x : Surroundings m σ} {io : Bool}
  {s : Session} {w w' : σ} {outcome : Outcome} {moves earlier later : List Move} {turns a : Nat}
  {e : Effect} {next : Machine} {text : Text}

theorem atBreakpoint_of_readyAt (set : .arrival a ∈ s.breakpoints) (ready : next.ReadyAt a) :
    (s.afterStep e next).atBreakpoint e = true := by
  have holds : s.breakpoints.any (·.holds next e) = true :=
    List.any_eq_true.2 ⟨.arrival a, set, by simp [Breakpoint.holds, ready.2]⟩
  simpa [atBreakpoint, afterStep, ready.1] using holds

theorem Course.last_of_arrival (course : Course x io s w moves outcome w')
    (set : .arrival a ∈ s.breakpoints) (split : moves = earlier ++ .step e :: later)
    (ready : (s.machine.afterMoves s.flags (earlier ++ [.step e])).ReadyAt a) :
    later = [] ∧ outcome.1 = .ok () ∧ outcome.2.brokeLast = true := by
  obtain ⟨t, machine, flags, breakpoints, made⟩ := course.exists_session split
  rw [← breakpoints] at set
  rw [Machine.afterMoves_append, ← machine, ← flags] at ready
  rcases made with ⟨t', onward⟩ | ⟨none, final⟩
  · -- The run goes on after this step, so the breakpoint does not hold.
    cases onward with
    | step taken unbroken =>
      rw [Machine.afterMoves_step taken, Machine.afterMoves_nil] at ready
      cases (atBreakpoint_of_readyAt set ready).symm.trans unbroken
  · cases final
    exact ⟨none, rfl, rfl⟩

theorem Course.readyAt_of_fetched (course : Course x io s w moves outcome w')
    (split : moves = earlier ++ .step e :: later) (fetched : e.fetched = some a) :
    (s.machine.afterMoves s.flags earlier).ReadyAt a := by
  obtain ⟨next, taken⟩ := course.exists_step split
  obtain ⟨fetching, here, -⟩ := (Machine.step_ok_iff.1 taken).fetched fetched
  exact ⟨fetching, here⟩

theorem Course.pc_of_input (course : Course x io s w moves outcome w')
    (split : moves = earlier ++ .input text :: later) :
    (s.machine.afterMoves s.flags (earlier ++ [.input text])).pc =
      Machine.pastInput (s.machine.afterMoves s.flags earlier).pc := by
  obtain ⟨t, machine, flags, -, made⟩ := course.exists_session split
  rw [Machine.afterMoves_append, ← machine, ← flags]
  rcases made with ⟨t', onward⟩ | ⟨-, final⟩
  · cases onward with
    | input supplied =>
      obtain ⟨-, value, -, rfl⟩ := Machine.resume_ok_iff.1 supplied
      simp [Machine.afterMoves_input supplied, Machine.supplied]
  · cases final

/-- A run that ends at a breakpoint ends with a step, unless it began there. -/
theorem Course.exists_step_of_broke (course : Course x io s w moves outcome w')
    (fresh : s.brokeLast = false) (broke : outcome.2.brokeLast = true) :
    ∃ front e, moves = front ++ [.step e] := by
  refine course.induction (motive := fun s moves => s.brokeLast = false →
    ∃ front e, moves = front ++ [.step e]) ?_ ?_ fresh
  · intro s moves final fresh
    cases final with
    | still machine executed activity unbroken => cases fresh.symm.trans (unbroken broke)
    | @broken e next taken => exact ⟨[], e, rfl⟩
  · intro s s' move moves onward rest fresh
    have fresh : s'.brokeLast = false := by
      cases onward with
      | step => exact fresh
      | input => rfl
    obtain ⟨front, e, rfl⟩ := rest fresh
    exact ⟨move :: front, e, rfl⟩

theorem Course.heeds (course : Course x io s w moves outcome w')
    (set : .arrival a ∈ s.breakpoints) (fresh : s.brokeLast = false) :
    Heeds s a moves outcome where
  arrival _ _ _ split ready := course.last_of_arrival set split ready
  executed earlier e later split fetched := by
    have ready := course.readyAt_of_fetched split fetched
    rcases List.eq_nil_or_concat earlier with rfl | ⟨front, move, rfl⟩
    · exact .inl rfl
    · right
      rw [List.concat_eq_append] at split ready ⊢
      rw [List.append_assoc, List.singleton_append] at split
      cases move with
      | step before =>
        obtain ⟨none, -⟩ := course.last_of_arrival set split ready
        cases none
      | input text =>
        refine ⟨front, text, rfl, ?_⟩
        rw [← course.pc_of_input split]
        exact ready.2
  broke broke := course.exists_step_of_broke fresh broke

/-- A run with a device heeds a breakpoint at an address wherever a step arrives there, but not where
an input does. -/
theorem runWith_heeds_arrival (set : .arrival a ∈ s.breakpoints)
    (ended : x.eval (s.runWith x.host x.device turns) w = (some outcome, w')) :
    ∃ moves, Course x true s.start w moves outcome w' ∧ Heeds s a moves outcome := by
  obtain ⟨moves, course⟩ := exists_course (ends_iff_runWith.2 ⟨turns, ended⟩)
  have heeds := course.heeds set rfl
  exact ⟨moves, course, { heeds with }⟩

/-- A program that puts out the number it gets, with a breakpoint at an address. -/
def relay (a : Nat) : Session :=
  { machine := .ofMemory (.ofWords [901, 902, 0]), breakpoints := [.arrival a] }

def seven : Buffer := { input := ["7".toList] }

theorem runWith_heeds_arrival_relay :
    let x := Surroundings.buffered
    ∃ outcome queue, x.eval ((relay 2).runWith x.host x.device 9) seven = (some outcome, queue) ∧
    ∃ moves, Course x true (relay 2).start seven moves outcome queue ∧
      Heeds (relay 2) 2 moves outcome := by
  intro x
  have turns : EndsWithin x true _ _ 9 (relay 2).start seven :=
    .earlier (.stepped rfl rfl rfl rfl) (.earlier (.supplied rfl rfl rfl rfl rfl rfl)
      (.last (.broken rfl rfl rfl rfl)))
  have ended := turns.runWith (Nat.le_refl 9)
  exact ⟨_, _, ended, runWith_heeds_arrival (by simp [relay]) ended⟩

/-- A breakpoint that the machine arrives at by an input is passed: the instruction there is executed
though it is not the first, and the run goes on to its halt. -/
theorem runWith_passes_arrival :
    let x := Surroundings.buffered
    ∃ turns outcome queue,
      x.eval ((relay 1).runWith x.host x.device turns) seven = (some outcome, queue) ∧
    ∃ moves, Course x true (relay 1).start seven moves outcome queue ∧
      (∃ earlier e later, moves = earlier ++ .step e :: later ∧ fetches earlier = 1 ∧
        e.fetched = some 1) ∧
      outcome.2.brokeLast = false ∧ outcome.2.haltedLast = true := by
  intro x
  have course : Course x true (relay 1).start seven _ _ _ :=
    .more (.stepped rfl rfl rfl rfl) (.more (.supplied rfl rfl rfl rfl rfl rfl)
      (.more (.stepped rfl rfl rfl rfl) (.more (.stepped rfl rfl rfl rfl) (.last (.halted rfl)))))
  obtain ⟨turns, ended⟩ := ends_iff_runWith.1 course.ends
  exact ⟨turns, _, _, ended, _, course,
    ⟨[_, _], _, [_], rfl, rfl, rfl⟩, rfl, rfl⟩

end Session
end LittleMan
