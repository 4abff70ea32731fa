import LittleMan.Proofs.Activity
import LittleMan.Proofs.Session.Course

/-!
# The activity of a run with a device

The activity that a run leaves is that of the steps since its last input, and of all its steps if it
had none (`runWith_activity`). Its count of instructions is that of all its steps, so the two need
not agree (`runWith_forgets`).
-/

namespace LittleMan.Session

open Machine (Move fetches)

variable {m : Type → Type} [Monad m] {σ : Type} {x : Surroundings m σ} {io : Bool}
  {s : Session} {w w' : σ} {outcome : Outcome} {moves : List Move} {turns : Nat}
  {before : List Effect}

/-- The steps since the last input of a run, which the activity that it leaves shows, together with
those that it showed before if there was no input. -/
theorem Course.activity (course : Course x io s w moves outcome w')
    (shows : s.activity.Shows before) :
    (∃ later, moves = later.map .step ∧ outcome.2.activity.Shows (before ++ later)) ∨
    ∃ front text later, moves = front ++ .input text :: later.map .step ∧
      outcome.2.activity.Shows later := by
  refine course.induction (motive := fun s moves => ∀ before, s.activity.Shows before →
    (∃ later, moves = later.map .step ∧ outcome.2.activity.Shows (before ++ later)) ∨
    ∃ front text later, moves = front ++ .input text :: later.map .step ∧
      outcome.2.activity.Shows later) ?_ ?_ before shows
  · intro s moves final before shows
    cases final with
    | still machine executed activity =>
      exact .inl ⟨[], rfl, by simpa [activity] using shows⟩
    | @broken e next taken => exact .inl ⟨[e], rfl, shows.record e⟩
  · intro s s' move moves onward rest before shows
    cases onward with
    | @step e next taken unbroken =>
      rcases rest (before ++ [e]) (shows.record e) with
        ⟨later, rfl, there⟩ | ⟨front, text, later, rfl, there⟩
      · exact .inl ⟨e :: later, rfl, by simpa using there⟩
      · exact .inr ⟨.step e :: front, text, later, rfl, there⟩
    | @input text next supplied =>
      right
      rcases rest [] Activity.shows_nil with
        ⟨later, rfl, there⟩ | ⟨front, text', later, rfl, there⟩
      · exact ⟨[], text, later, rfl, there⟩
      · exact ⟨.input text :: front, text', later, rfl, there⟩

/-- A word that a step of a run fetched is in memory. -/
theorem Course.fetched_lt {a : Nat} {e : Effect} (course : Course x io s w moves outcome w')
    (made : .step e ∈ moves) (fetched : e.fetched = some a) : a < memorySize := by
  obtain ⟨earlier, later, split⟩ := List.append_of_mem made
  obtain ⟨next, taken⟩ := course.exists_step split
  exact Machine.fetched_lt_of_step taken fetched

/-- What happened to the cells is, after a run with a device, what its steps since its last input
did, or all its steps if it had none. Unless a count has stopped, the executed counts sum to how many
words these steps fetched, while the session counts all the words that the run fetched. -/
theorem runWith_activity
    (ended : x.eval (s.runWith x.host x.device turns) w = (some outcome, w')) :
    ∃ moves, Course x true s.start w moves outcome w' ∧
      outcome.2.executed = s.executed + UInt64.ofNat (fetches moves) ∧
      ∃ earlier later, moves = earlier ++ later.map .step ∧
        (earlier = [] ∨ ∃ front text, earlier = front ++ [.input text]) ∧
        outcome.2.activity.Shows later ∧
        (later.length ≤ CellActivity.countLimit →
          outcome.2.activity.executions = fetches (later.map .step)) := by
  obtain ⟨moves, course⟩ := exists_course (ends_iff_runWith.2 ⟨turns, ended⟩)
  refine ⟨moves, course, course.executed, ?_⟩
  obtain ⟨earlier, later, split, last, shows⟩ : ∃ earlier later, moves = earlier ++ later.map .step ∧
      (earlier = [] ∨ ∃ front text, earlier = front ++ [.input text]) ∧
      outcome.2.activity.Shows later := by
    rcases course.activity Activity.shows_nil with
      ⟨later, split, shows⟩ | ⟨front, text, later, split, shows⟩
    · exact ⟨[], later, split, .inl rfl, shows⟩
    · exact ⟨front ++ [.input text], later, by simp [split], .inr ⟨front, text, rfl⟩, shows⟩
  refine ⟨earlier, later, split, last, shows, fun few => ?_⟩
  rw [shows.total few fun e mem a fetched => course.fetched_lt (by simp [split, mem]) fetched]
  simp [fetches, List.countP_map, Function.comp_def, Machine.Move.fetches]

/-- A program that takes a number and halts. -/
def taker : Session := { machine := .ofMemory (.ofWords [901, 0]) }

theorem runWith_activity_taker :
    let x := Surroundings.buffered
    let w : Buffer := { input := ["7".toList] }
    ∃ outcome w', x.eval (taker.runWith x.host x.device 9) w = (some outcome, w') ∧
    ∃ moves, Course x true taker.start w moves outcome w' ∧
      outcome.2.executed = taker.executed + UInt64.ofNat (fetches moves) ∧
      ∃ earlier later, moves = earlier ++ later.map .step ∧
        (earlier = [] ∨ ∃ front text, earlier = front ++ [.input text]) ∧
        outcome.2.activity.Shows later ∧
        (later.length ≤ CellActivity.countLimit →
          outcome.2.activity.executions = fetches (later.map .step)) := by
  intro x w
  have turns : EndsWithin x true _ _ 9 taker.start w :=
    .earlier (.stepped rfl rfl rfl rfl) (.earlier (.supplied rfl rfl rfl rfl rfl rfl)
      (.earlier (.stepped rfl rfl rfl rfl) (.last (.halted rfl))))
  have ended := turns.runWith (Nat.le_refl 9)
  exact ⟨_, _, ended, runWith_activity ended⟩

/-- A run with an input forgets what happened before it: the instruction in the first cell was
executed and is counted, but its cell shows nothing. -/
theorem runWith_forgets :
    let x := Surroundings.buffered
    let w : Buffer := { input := ["7".toList] }
    ∃ turns outcome w', x.eval (taker.runWith x.host x.device turns) w = (some outcome, w') ∧
    ∃ moves, Course x true taker.start w moves outcome w' ∧
      (∃ e, .step e ∈ moves ∧ e.fetched = some 0) ∧ outcome.2.activity[0].executed = 0 ∧
      outcome.2.executed = taker.executed + 2 ∧ outcome.2.activity.executions = 1 := by
  intro x w
  have course : Course x true taker.start w _ _ _ :=
    .more (.stepped rfl rfl rfl rfl) (.more (.supplied rfl rfl rfl rfl rfl rfl)
      (.more (.stepped rfl rfl rfl rfl) (.last (.halted rfl))))
  obtain ⟨turns, ended⟩ := ends_iff_runWith.1 course.ends
  exact ⟨turns, _, _, ended, _, course, ⟨_, .head _, rfl⟩, rfl, rfl, rfl⟩

end LittleMan.Session
