import LittleMan.Proofs.Machine.ThreeDigits
import LittleMan.Proofs.Session.Course
import LittleMan.Proofs.Session.Report

/-!
# Overflow of a bounded accumulator

A policy that fits results into three digits does not bound the accumulator by itself: a load copies
its cell as it is, and lenient assembly puts any word into a cell. So under such a policy the
breakpoint at an overflow can still be reached, but only with a longer word that was in memory from
the start, and only by a load (`overflow_only_by_load`). No program that strict assembly accepts has
such a word.
-/

namespace LittleMan

open Machine (Move)

theorem Breakpoint.overflow_holds_iff {m : Machine} {e : Effect} :
    overflow.holds m e = true ↔ ¬ m.acc.ThreeDigits := by
  simp only [holds, Word.ThreeDigits, Bool.not_eq_true', Bool.and_eq_false_iff,
    decide_eq_false_iff_not]
  omega

/-- The memory holds the word, and the word has more than three digits. -/
def Memory.HoldsLong (memory : Memory) (w : Word) : Prop := w ∈ memory ∧ ¬ w.ThreeDigits

theorem Memory.ThreeDigits.not_holdsLong {memory : Memory} (digits : memory.ThreeDigits)
    (w : Word) : ¬ memory.HoldsLong w := by
  rintro ⟨held, long⟩
  obtain ⟨a, inside, rfl⟩ := Vector.mem_iff_getElem.1 held
  exact long (digits a inside)

namespace Machine

variable {m : Machine} {memory : Memory} {call : Call} {calls : List Call} {w : Word}

/-! ## Where a long word comes from -/

/-- Under policies that fit results into three digits, a longer word is one of the memory that the
machine started on. -/
theorem allWords_afterCalls (memory : Memory)
    (bounded : ∀ call ∈ calls, call.flags.policy.Bounded) :
    ((ofMemory memory).afterCalls calls).AllWords fun w => w.ThreeDigits ∨ memory.HoldsLong w := by
  have fresh : (ofMemory memory).AllWords fun w => w.ThreeDigits ∨ memory.HoldsLong w := by
    refine ⟨.inl Word.threeDigits_zero, fun a inside => ?_⟩
    by_cases digits : Word.ThreeDigits memory[a]
    · exact .inl digits
    · exact .inr ⟨Vector.getElem_mem inside, digits⟩
  exact fresh.afterCalls fun call made n => .inl ((bounded call made).threeDigits_fit n)

theorem holdsLong_of_holds {e : Effect} (bounded : ∀ call ∈ calls, call.flags.policy.Bounded)
    (holds : Breakpoint.overflow.holds ((ofMemory memory).afterCalls calls) e = true) :
    memory.HoldsLong ((ofMemory memory).afterCalls calls).acc :=
  (allWords_afterCalls memory bounded).acc.resolve_left (Breakpoint.overflow_holds_iff.1 holds)

/-- Some step of the calls loads the word. -/
def Loads (m : Machine) (calls : List Call) (w : Word) : Prop :=
  ∃ earlier flags later e next a, calls = earlier ++ .step flags :: later ∧
    (m.afterCalls earlier).step flags = .ok (e, next) ∧ e.instruction = some (.lda a) ∧
    next.acc = w

theorem Loads.cons (loads : (m.afterCall call).Loads calls w) : m.Loads (call :: calls) w := by
  obtain ⟨earlier, flags, later, e, next, a, rfl, taken, load, loaded⟩ := loads
  exact ⟨call :: earlier, flags, later, e, next, a, rfl, taken, load, loaded⟩

/-- Under a policy that fits results into three digits, only a load takes a longer word into the
accumulator. -/
theorem acc_afterCall (m : Machine) (calls : List Call) (bounded : call.flags.policy.Bounded) :
    (m.afterCall call).acc = m.acc ∨ m.Loads (call :: calls) (m.afterCall call).acc ∨
      (m.afterCall call).acc.ThreeDigits := by
  cases call with
  | step flags =>
    rcases taken : m.step flags with fault | ⟨e, next⟩
    · left
      simp [afterCall, taken]
    · rw [afterCall_step taken]
      rcases (step_ok_iff.1 taken).acc_cases with same | ⟨a, load, -⟩ | ⟨n, fitted⟩
      · exact .inl same
      · exact .inr (.inl ⟨[], flags, calls, e, next, a, rfl, taken, load, rfl⟩)
      · exact .inr (.inr (fitted ▸ bounded.threeDigits_fit n))
  | resume flags input =>
    rcases supplied : m.resume flags input with fault | next
    · left
      simp [afterCall, supplied]
    · obtain ⟨-, value, -, rfl⟩ := resume_ok_iff.1 supplied
      have fitted : (flags.policy.fit value.toInt).ThreeDigits := bounded.threeDigits_fit _
      right; right
      simpa [afterCall, supplied, Machine.supplied] using fitted

theorem acc_afterCalls (m : Machine) (bounded : ∀ call ∈ calls, call.flags.policy.Bounded) :
    (m.afterCalls calls).acc = m.acc ∨ m.Loads calls (m.afterCalls calls).acc ∨
      (m.afterCalls calls).acc.ThreeDigits := by
  induction calls generalizing m with
  | nil => exact .inl rfl
  | cons call calls ih =>
    rw [List.forall_mem_cons] at bounded
    rcases ih (m.afterCall call) bounded.2 with same | loads | digits
    · have first := acc_afterCall m calls bounded.1
      rw [← same] at first
      exact first
    · exact .inr (.inl loads.cons)
    · exact .inr (.inr digits)

end Machine

namespace Session

variable {m : Type → Type} [Monad m] {σ : Type} {x : Surroundings m σ} {io : Bool} {s : Session}
  {w w' : σ} {moves : List Move} {outcome : Outcome} {memory : Memory}

/-- The breakpoint at an overflow holds after a step of a run only with a long word of the memory in
the accumulator, and if no other breakpoint is set, the run pauses at a breakpoint only there. -/
structure OverflowsBy (memory : Memory) (s : Session) (moves : List Move) (outcome : Outcome) :
    Prop where
  step (earlier : List Move) (e : Effect) (later : List Move)
    (split : moves = earlier ++ .step e :: later)
    (holds : Breakpoint.overflow.holds (s.machine.afterMoves s.flags (earlier ++ [.step e])) e) :
    memory.HoldsLong (s.machine.afterMoves s.flags (earlier ++ [.step e])).acc
  broke (only : ∀ b ∈ s.breakpoints, b = .overflow) (broke : outcome.2.brokeLast = true) :
    memory.HoldsLong outcome.2.machine.acc

theorem Ends.breakpoints (ended : Ends x io s w outcome w') :
    outcome.2.breakpoints = s.breakpoints := by
  refine run_induction (motive := fun s _ => outcome.2.breakpoints = s.breakpoints) ?_ ?_ ended
  · intro s w taken
    cases taken <;> rfl
  · intro s w s₁ w₁ taken rest
    cases taken <;> exact rest

/-- A run that reports a breakpoint has reached one that is set. -/
theorem Ends.exists_holds (ended : Ends x io s w outcome w') (fresh : s.pause = .none)
    (broke : outcome.2.brokeLast = true) :
    ∃ e, ∃ b ∈ s.breakpoints, b.holds outcome.2.machine e = true := by
  have truthful := ended.truthful fresh
  rw [← ended.breakpoints]
  obtain ⟨result, left⟩ := outcome
  cases result with
  | ok =>
    obtain ⟨-, reached, -⟩ := truthful
    exact (reached broke).2
  | error fault =>
    cases fault with
    | illegalWord word =>
      obtain ⟨-, -, -, -, -, -, unbroken⟩ := truthful
      cases broke.symm.trans unbroken
    | invalidInput text =>
      obtain ⟨-, -, -, -, unbroken⟩ := truthful
      cases broke.symm.trans unbroken
    | notReady => cases truthful

theorem Course.overflowsBy {calls : List Call} (course : Course x io s.start w moves outcome w')
    (machine : s.machine = (Machine.ofMemory memory).afterCalls calls)
    (bounded : ∀ call ∈ calls, call.flags.policy.Bounded) (fits : s.flags.policy.Bounded) :
    s.OverflowsBy memory moves outcome := by
  have reached (moves : List Move) : s.machine.afterMoves s.flags moves =
      (Machine.ofMemory memory).afterCalls (calls ++ moves.map (·.call s.flags)) := by
    simp [machine, Machine.afterMoves, Machine.afterCalls]
  have allBounded (moves : List Move) :
      ∀ call ∈ calls ++ moves.map (·.call s.flags), call.flags.policy.Bounded := by
    intro call made
    rcases List.mem_append.1 made with earlier | now
    · exact bounded call earlier
    · obtain ⟨move, -, rfl⟩ := List.mem_map.1 now
      cases move <;> exact fits
  constructor
  · intro earlier e later split holds
    rw [reached] at holds ⊢
    exact Machine.holdsLong_of_holds (allBounded _) holds
  · intro only broke
    obtain ⟨e, b, set, holds⟩ := course.ends.exists_holds rfl broke
    obtain rfl := only b set
    rw [course.machine, show s.start.machine.afterMoves s.start.flags moves = _ from reached moves]
      at holds ⊢
    exact Machine.holdsLong_of_holds (allBounded _) holds

end Session

/-- Calls under policies that fit results into three digits take a longer word into the accumulator
only by a load, and only one that was in memory from the start; so does every run of a session with
that machine. The memory of a program that strict assembly accepts holds no such word. -/
theorem overflow_only_by_load (memory : Memory) (calls : List Call)
    (bounded : ∀ call ∈ calls, call.flags.policy.Bounded) :
    let m := (Machine.ofMemory memory).afterCalls calls
    (∀ e, Breakpoint.overflow.holds m e = true ↔ memory.HoldsLong m.acc) ∧
    (memory.HoldsLong m.acc → (Machine.ofMemory memory).Loads calls m.acc) ∧
    (∀ (m' : Type → Type) [Monad m'] (σ : Type) (x : Surroundings m' σ) (io : Bool) (s : Session)
      (w w' : σ) (outcome : Outcome), s.machine = m → s.flags.policy.Bounded →
        Session.Ends x io s.start w outcome w' →
          ∃ moves, Session.Course x io s.start w moves outcome w' ∧
            s.OverflowsBy memory moves outcome) ∧
    ∀ symbols source object,
      (Assembly.assemble { strict := true, symbols } source).result = .ok object →
        ∀ w, ¬ object.words.HoldsLong w := by
  intro m
  refine ⟨?_, ?_, ?_, ?_⟩
  · intro e
    constructor
    · exact Machine.holdsLong_of_holds bounded
    · intro long
      exact Breakpoint.overflow_holds_iff.2 long.2
  · intro long
    rcases Machine.acc_afterCalls (Machine.ofMemory memory) bounded with same | loads | digits
    · have fresh : m.acc = 0 := same
      exact absurd (fresh ▸ Word.threeDigits_zero) long.2
    · exact loads
    · exact absurd digits long.2
  · intro m' _ σ x io s w w' outcome machine fits ended
    obtain ⟨moves, course⟩ := Session.exists_course ended
    exact ⟨moves, course, course.overflowsBy machine bounded fits⟩
  · intro symbols source object accepted
    exact (Assembly.threeDigits_of_assemble accepted).not_holdsLong

/-- A program that loads a number of four digits, and then one of one digit. -/
def thousand : Memory := .ofWords [503, 504, 0, 1000, 5]

/-- A session that clamps results and pauses at an overflow only. -/
def clamped : Session :=
  { machine := .ofMemory thousand, flags := { policy := .clamp }, breakpoints := [.overflow] }

theorem overflow_only_by_load_thousand :
    let calls := [Call.step clamped.flags]
    let m := (Machine.ofMemory thousand).afterCalls calls
    (∀ call ∈ calls, call.flags.policy.Bounded) ∧ thousand.HoldsLong m.acc ∧
      (Machine.ofMemory thousand).Loads calls m.acc ∧
      ∃ s moves,
        Session.Course Surroundings.alone false clamped.start () moves (.ok (), s) () ∧
        clamped.OverflowsBy thousand moves (.ok (), s) ∧ s.brokeLast = true := by
  intro calls m
  have bounded : ∀ call ∈ calls, call.flags.policy.Bounded := by
    simp [calls, clamped, Call.flags, Policy.Bounded]
  obtain ⟨overflows, loads, -, -⟩ := overflow_only_by_load thousand calls bounded
  have long : thousand.HoldsLong m.acc := (overflows {}).1 rfl
  obtain ⟨-, -, runs, -⟩ := overflow_only_by_load thousand [] (by simp)
  have ended : Session.Ends Surroundings.alone false clamped.start () _ () :=
    .last (.broken rfl rfl rfl rfl)
  obtain ⟨moves, course, by_load⟩ :=
    runs Id Unit Surroundings.alone false clamped () () _ rfl (.inr rfl) ended
  exact ⟨bounded, long, loads long, _, moves, course, by_load, rfl⟩

/-- The text of the program. -/
def thousandSource : Text := "LDA X
LDA Y
HLT
X DAT 1000
Y DAT 5".toList

/-- Lenient assembly accepts the program, and its run pauses at an overflow though results are
clamped. -/
theorem overflow_though_clamped :
    ∃ object, (Assembly.assemble {} thousandSource).result = .ok object ∧
      ∃ s, Surroundings.alone.eval ((clamped.load object).run Surroundings.alone.host 9) () =
          (some (.ok (), s), ()) ∧
        s.brokeLast = true ∧ ∀ e, Breakpoint.overflow.holds s.machine e = true := by
  have assembled : ((Assembly.assemble {} thousandSource).result.map (·.words)).toOption =
      some thousand := by
    decide +kernel
  obtain ⟨object, accepted, words⟩ : ∃ object,
      (Assembly.assemble {} thousandSource).result = .ok object ∧ object.words = thousand := by
    cases result : (Assembly.assemble {} thousandSource).result with
    | ok object =>
      rw [result] at assembled
      exact ⟨object, rfl, Option.some.inj assembled⟩
    | error =>
      rw [result] at assembled
      cases assembled
  have loaded : clamped.load object = clamped := by
    rw [Session.load, words]
    rfl
  refine ⟨object, accepted, ?_⟩
  rw [loaded]
  exact ⟨_, rfl, rfl, fun e => rfl⟩

end LittleMan
