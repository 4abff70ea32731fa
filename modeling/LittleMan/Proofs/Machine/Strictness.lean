import LittleMan.Breakpoint
import LittleMan.Proofs.Machine.Calls

/-!
# Strict and lenient simulation

Whether a machine is simulated strictly makes a difference only where it fetches a word that means
no instruction. Up to the first such fetch, whatever steps and inputs it is asked for, it gives the
same answers and goes through the same states; there strict simulation is stuck, and lenient
simulation passes over the word (`strict_until_skip`).
-/

namespace LittleMan

namespace Machine

/-- What a machine is asked for, however it is simulated. -/
inductive Ask where
  | step
  | input (text : Text)
deriving DecidableEq

namespace Ask

def call (flags : Flags) : Ask → Call
  | step => .step flags
  | input text => .resume flags text

/-- Why a machine refuses what it is asked for at a word that means no instruction. -/
def refusal (word : Word) : Ask → Fault
  | step => .illegalWord word
  | input _ => .notReady

end Ask

/-- The answer to a call: the effect of a step, or the fault that it is refused for. An input has no
effect. -/
def answer (m : Machine) : Call → Except Fault Effect
  | .step flags => (m.step flags).map Prod.fst
  | .resume flags input => (m.resume flags input).map fun _ => {}

/-- The answers that a machine gives one after another, each with the machine after it. -/
def history (flags : Flags) (m : Machine) : List Ask → List (Except Fault Effect × Machine)
  | [] => []
  | ask :: more =>
    (m.answer (ask.call flags), m.afterCall (ask.call flags)) ::
      history flags (m.afterCall (ask.call flags)) more

/-- The machine after everything that it was asked for. -/
def afterAsks (flags : Flags) (m : Machine) (asks : List Ask) : Machine :=
  m.afterCalls (asks.map (Ask.call flags))

/-- A word was passed over. -/
def Skipped : Except Fault Effect × Machine → Prop
  | (.ok e, next) => Breakpoint.skipped.holds next e = true
  | (.error _, _) => False

/-- Lenient simulation passes over no word. -/
def Unskipped (policy : Policy) (m : Machine) (asks : List Ask) : Prop :=
  ∀ entry ∈ m.history { strict := false, policy } asks, ¬ Skipped entry

instance : DecidablePred Skipped
  | (.ok _, _) => inferInstanceAs (Decidable (_ = true))
  | (.error _, _) => inferInstanceAs (Decidable False)

instance (policy : Policy) (m : Machine) (asks : List Ask) : Decidable (m.Unskipped policy asks) :=
  inferInstanceAs (Decidable (∀ entry ∈ _, ¬ Skipped entry))

/-- The machine is about to fetch a word that means no instruction. -/
structure AtData (m : Machine) (word : Word) : Prop where
  fetching : m.status = .fetching
  found : m.word? = some word
  unknown : Instruction.decode word = none

/-- Where strict and lenient simulation part. Strict simulation refuses the word, and as nothing
changes it refuses everything that it is asked for from then on. Lenient simulation fetches the word
and does nothing else, unless it was in the last cell. -/
structure PartsAt (policy : Policy) (m : Machine) (word : Word) : Prop extends AtData m word where
  strict : ∀ asks, m.history { strict := true, policy } asks =
    asks.map fun ask => (.error (ask.refusal word), m)
  lenient : m.step { strict := false, policy } = .ok ({ fetched := some m.pc.toNat },
    { m with pc := m.pc + 1, ir := word, ar := word.remainder,
             halted := decide (m.pc.toNat = 99) })
  skipped : ∀ e next, m.step { strict := false, policy } = .ok (e, next) →
    Breakpoint.skipped.holds next e = true

variable {m : Machine} {policy : Policy} {word : Word} {ask : Ask} {asks more : List Ask}

/-! ## One call -/

/-- A step looks at strictness only at a word that means no instruction. -/
theorem step_strict_eq (policy : Policy) (meant : ∀ word, ¬ m.AtData word) :
    m.step { strict := true, policy } = m.step { strict := false, policy } := by
  cases status : m.status with
  | halted | awaitingInput => simp [step, status]
  | fetching =>
    cases found : m.word? with
    | none => simp [step, status, found]
    | some word =>
      cases known : Instruction.decode word with
      | some i => simp [step, status, found, known]
      | none => exact absurd ⟨status, found, known⟩ (meant word)

/-- An input does not look at strictness at all. -/
theorem resume_strict_eq (input : Text) :
    m.resume { strict := true, policy } input = m.resume { strict := false, policy } input := rfl

theorem call_strict_eq (policy : Policy) (meant : ask = .step → ∀ word, ¬ m.AtData word) :
    m.answer (ask.call { strict := true, policy }) =
        m.answer (ask.call { strict := false, policy }) ∧
      m.afterCall (ask.call { strict := true, policy }) =
        m.afterCall (ask.call { strict := false, policy }) := by
  cases ask with
  | step =>
    have same := step_strict_eq policy (meant rfl)
    exact ⟨by simp only [Ask.call, answer, same], by simp only [Ask.call, afterCall, same]⟩
  | input text =>
    have same : m.resume { strict := true, policy } text =
        m.resume { strict := false, policy } text := resume_strict_eq text
    exact ⟨by simp only [Ask.call, answer, same], by simp only [Ask.call, afterCall, same]⟩

/-! ## At a word that means no instruction -/

theorem AtData.lenient_step (data : m.AtData word) (policy : Policy) :
    m.step { strict := false, policy } = .ok ({ fetched := some m.pc.toNat },
      { m with pc := m.pc + 1, ir := word, ar := word.remainder,
               halted := decide (m.pc.toNat = 99) }) := by
  have running := (status_fetching.1 data.fetching).1
  have inside : m.pc.toNat < 100 := (word?_eq_some.1 data.found).1
  have past : (m.pc + 1).toNat = m.pc.toNat + 1 := toNat_pc_fetch (m := m) word inside
  have passed : Advance { strict := false, policy } m _ _ :=
    .skipped data.fetching data.found data.unknown rfl
  rw [step_ok_iff.2 passed]
  by_cases last : m.pc.toNat = 99
  · simp [haltIfRanOff, ranOff, fetch, past, last]
  · have goesOn : ¬ 100 ≤ m.pc.toNat + 1 := by omega
    simp [haltIfRanOff, ranOff, fetch, past, last, goesOn, running]

theorem AtData.strict_refuses (data : m.AtData word) (policy : Policy) (ask : Ask) :
    m.answer (ask.call { strict := true, policy }) = .error (ask.refusal word) ∧
      m.afterCall (ask.call { strict := true, policy }) = m := by
  cases ask with
  | step =>
    have refused : m.step { strict := true, policy } = .error (.illegalWord word) :=
      step_error_iff.2 (.inr ⟨data.fetching, rfl, word, data.found, data.unknown, rfl⟩)
    exact ⟨by simp [Ask.call, answer, refused, Ask.refusal, Except.map],
      by simp [Ask.call, afterCall, refused]⟩
  | input text =>
    have refused : m.resume { strict := true, policy } text = .error .notReady :=
      resume_error_iff.2 (.inl ⟨by simp [data.fetching], rfl⟩)
    exact ⟨by simp [Ask.call, answer, refused, Ask.refusal, Except.map],
      by simp [Ask.call, afterCall, refused]⟩

theorem AtData.partsAt (data : m.AtData word) (policy : Policy) : m.PartsAt policy word where
  toAtData := data
  strict asks := by
    induction asks with
    | nil => rfl
    | cons ask more ih =>
      obtain ⟨refused, unchanged⟩ := data.strict_refuses policy ask
      rw [history, refused, unchanged, ih, List.map_cons]
  lenient := data.lenient_step policy
  skipped e next taken := by
    rw [data.lenient_step policy] at taken
    cases taken
    rfl

/-- The words that are passed over are those that mean no instruction. -/
theorem skipped_iff :
    Skipped (m.answer (ask.call { strict := false, policy }),
      m.afterCall (ask.call { strict := false, policy })) ↔
    ask = .step ∧ ∃ word, m.AtData word := by
  cases ask with
  | input text =>
    cases supplied : m.resume { strict := false, policy } text <;>
      simp [Ask.call, answer, supplied, Except.map, Skipped, Breakpoint.holds]
  | step =>
    simp only [true_and]
    constructor
    · intro skipped
      cases taken : m.step { strict := false, policy } with
      | error fault => simp [Ask.call, answer, taken, Except.map, Skipped] at skipped
      | ok result =>
        obtain ⟨e, next⟩ := result
        have passed : Breakpoint.skipped.holds next e = true := by
          simpa [Ask.call, answer, afterCall, taken, Except.map, Skipped] using skipped
        cases step_ok_iff.1 taken with
        | idle | outside | executed => simp [Breakpoint.holds] at passed
        | skipped fetching found unknown => exact ⟨_, fetching, found, unknown⟩
    · rintro ⟨word, data⟩
      have taken := data.lenient_step policy
      simp [Ask.call, answer, afterCall, taken, Except.map, Skipped, Breakpoint.holds]

/-! ## Everything that is asked for -/

theorem unskipped_nil : m.Unskipped policy [] := by
  intro entry member
  cases member

theorem unskipped_cons_iff : m.Unskipped policy (ask :: more) ↔
    (ask = .step → ∀ word, ¬ m.AtData word) ∧
      (m.afterCall (ask.call { strict := false, policy })).Unskipped policy more := by
  rw [Unskipped, history, List.forall_mem_cons, skipped_iff]
  simp only [not_and, not_exists, Unskipped]

/-- A machine that passes over no word is simulated in the same way strictly. -/
theorem Unskipped.same (unskipped : m.Unskipped policy asks) :
    m.history { strict := true, policy } asks = m.history { strict := false, policy } asks ∧
      m.afterAsks { strict := true, policy } asks = m.afterAsks { strict := false, policy } asks := by
  induction asks generalizing m with
  | nil => exact ⟨rfl, rfl⟩
  | cons ask more ih =>
    obtain ⟨meant, rest⟩ := unskipped_cons_iff.1 unskipped
    obtain ⟨answers, machines⟩ := call_strict_eq policy meant
    obtain ⟨sameRest, sameLast⟩ := ih rest
    constructor
    · rw [history, history, answers, machines, sameRest]
    · simp only [afterAsks, List.map_cons, afterCalls, List.foldl_cons, machines] at sameLast ⊢
      exact sameLast

/-- Of the words that are passed over, one is the first. -/
theorem exists_first_skip (skips : ¬ m.Unskipped policy asks) : ∃ before rest word,
    asks = before ++ .step :: rest ∧ m.Unskipped policy before ∧
      (m.afterAsks { strict := false, policy } before).AtData word := by
  induction asks generalizing m with
  | nil => exact absurd unskipped_nil skips
  | cons ask more ih =>
    by_cases here : ask = .step ∧ ∃ word, m.AtData word
    · obtain ⟨rfl, word, data⟩ := here
      exact ⟨[], more, word, rfl, unskipped_nil, data⟩
    · have meant : ask = .step → ∀ word, ¬ m.AtData word :=
        fun stepped word data => here ⟨stepped, word, data⟩
      have later : ¬ (m.afterCall (ask.call { strict := false, policy })).Unskipped policy more :=
        fun rest => skips (unskipped_cons_iff.2 ⟨meant, rest⟩)
      obtain ⟨before, rest, word, rfl, unskipped, data⟩ := ih later
      exact ⟨ask :: before, rest, word, rfl, unskipped_cons_iff.2 ⟨meant, unskipped⟩, data⟩

/-- Whatever a machine is asked for, strict simulation gives the answers of lenient simulation and
goes through the same states, if no word is passed over. Otherwise it does so up to the first word
that is: there strict simulation refuses to go on, and lenient simulation only fetches the word. -/
theorem strict_until_skip (policy : Policy) (m : Machine) (asks : List Ask) :
    (m.Unskipped policy asks →
      m.history { strict := true, policy } asks = m.history { strict := false, policy } asks) ∧
    (¬ m.Unskipped policy asks → ∃ before rest word,
      asks = before ++ .step :: rest ∧ m.Unskipped policy before ∧
      m.history { strict := true, policy } before = m.history { strict := false, policy } before ∧
      m.afterAsks { strict := true, policy } before =
        m.afterAsks { strict := false, policy } before ∧
      (m.afterAsks { strict := false, policy } before).PartsAt policy word) := by
  refine ⟨fun unskipped => unskipped.same.1, fun skips => ?_⟩
  obtain ⟨before, rest, word, split, unskipped, data⟩ := exists_first_skip skips
  obtain ⟨answers, machines⟩ := unskipped.same
  exact ⟨before, rest, word, split, unskipped, answers, machines, data.partsAt policy⟩

/-- A machine that puts an input out from the last but one cell, with data in the last. -/
def cornerMachine : Machine :=
  { memory := Memory.ofWords (List.replicate 97 0 ++ [901, 902, 450]), pc := 97 }

/-- Enough to run it, with an input for its one instruction that asks for one. -/
def cornerAsks : List Ask := [.step, .input "7".toList, .step, .step, .step]

theorem strict_until_skip_corner :
    (cornerMachine.Unskipped .wrap (cornerAsks.take 3) ∧
      cornerMachine.history { strict := true, policy := .wrap } (cornerAsks.take 3) =
        cornerMachine.history { strict := false, policy := .wrap } (cornerAsks.take 3)) ∧
    ¬ cornerMachine.Unskipped .wrap cornerAsks ∧
      ∃ before rest word, cornerAsks = before ++ .step :: rest ∧
        (cornerMachine.afterAsks { strict := false, policy := .wrap } before).PartsAt .wrap word := by
  have unskipped : cornerMachine.Unskipped .wrap (cornerAsks.take 3) := by decide +kernel
  have skips : ¬ cornerMachine.Unskipped .wrap cornerAsks := by decide +kernel
  refine ⟨⟨unskipped, (strict_until_skip .wrap cornerMachine _).1 unskipped⟩, skips, ?_⟩
  obtain ⟨before, rest, word, split, -, -, -, parts⟩ :=
    (strict_until_skip .wrap cornerMachine _).2 skips
  exact ⟨before, rest, word, split, parts⟩

end Machine
end LittleMan
