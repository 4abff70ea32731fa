import LittleMan.Machine.Basic

/-!
# Steps, case by case

What a step of the machine can do, and what the supply of an input can do, each with the condition
under which it happens (`step_ok_iff`, `step_error_iff`, `resume_ok_iff`, `resume_error_iff`).
Before them, what fetching and executing an instruction change, register by register.
-/

namespace LittleMan.Machine

variable {m next : Machine} {flags : Flags} {e : Effect} {fault : Fault}

/-! ## What the machine is ready for -/

theorem status_halted : m.status = .halted ↔ m.halted = true := by
  unfold status
  split
  · simp_all
  · split <;> simp_all

theorem status_awaiting : m.status = .awaitingInput ↔ m.halted = false ∧ m.pending = true := by
  unfold status
  split
  · simp_all
  · split <;> simp_all

theorem status_fetching : m.status = .fetching ↔ m.halted = false ∧ m.pending = false := by
  unfold status
  split
  · simp_all
  · split <;> simp_all

theorem word?_eq_some {word : Word} :
    m.word? = some word ↔ ∃ inside : m.pc.toNat < memorySize, m.memory[m.pc.toNat] = word :=
  Vector.getElem?_eq_some_iff

theorem word?_eq_none : m.word? = none ↔ memorySize ≤ m.pc.toNat := by
  simp [word?]

/-! ## Fetching, and the end of memory -/

section Fetch
variable (word : Word)

@[simp] theorem fetch_memory : (m.fetch word).memory = m.memory := rfl

@[simp] theorem fetch_acc : (m.fetch word).acc = m.acc := rfl

@[simp] theorem fetch_pc : (m.fetch word).pc = m.pc + 1 := rfl

@[simp] theorem fetch_ir : (m.fetch word).ir = word := rfl

@[simp] theorem fetch_ar : (m.fetch word).ar = word.remainder := rfl

@[simp] theorem fetch_halted : (m.fetch word).halted = m.halted := rfl

@[simp] theorem fetch_pending : (m.fetch word).pending = m.pending := rfl

end Fetch

@[simp] theorem haltIfRanOff_memory : m.haltIfRanOff.memory = m.memory := by
  unfold haltIfRanOff; split <;> rfl

@[simp] theorem haltIfRanOff_acc : m.haltIfRanOff.acc = m.acc := by
  unfold haltIfRanOff; split <;> rfl

@[simp] theorem haltIfRanOff_pc : m.haltIfRanOff.pc = m.pc := by
  unfold haltIfRanOff; split <;> rfl

@[simp] theorem haltIfRanOff_ir : m.haltIfRanOff.ir = m.ir := by
  unfold haltIfRanOff; split <;> rfl

@[simp] theorem haltIfRanOff_ar : m.haltIfRanOff.ar = m.ar := by
  unfold haltIfRanOff; split <;> rfl

@[simp] theorem haltIfRanOff_pending : m.haltIfRanOff.pending = m.pending := by
  unfold haltIfRanOff; split <;> rfl

@[simp] theorem haltIfRanOff_halted :
    m.haltIfRanOff.halted = (m.halted || decide (memorySize ≤ m.pc.toNat)) := by
  unfold haltIfRanOff ranOff
  by_cases off : memorySize ≤ m.pc.toNat
  · simp [off]
  · simp [off]

/-! ## What an instruction does -/

section Execute
variable (m : Machine) (policy : Policy) (i : Instruction)

@[simp] theorem execute_ir : (m.execute policy i).2.ir = m.ir := by
  cases i <;> simp only [execute] <;> (try split) <;> rfl

@[simp] theorem execute_ar : (m.execute policy i).2.ar = m.ar := by
  cases i <;> simp only [execute] <;> (try split) <;> rfl

/-- Only an instruction for input makes the machine wait. -/
@[simp] theorem execute_pending : (m.execute policy i).2.pending = (m.pending || i = .inp) := by
  cases i <;> simp only [execute] <;> (try split) <;> simp [branch]

/-- Only the halt instruction halts the machine by itself. -/
@[simp] theorem execute_halted : (m.execute policy i).2.halted = (m.halted || i = .hlt) := by
  cases i <;> simp only [execute] <;> (try split) <;> simp [branch]

/-- The counter is where a branch went. An instruction for input takes it back, and every other
instruction leaves it. -/
theorem execute_pc : (m.execute policy i).2.pc =
    match (m.execute policy i).1.branched with
    | some a => UInt8.ofNat a
    | none => if i = .inp then m.pc - 1 else m.pc := by
  cases i with
  | brz a => by_cases zero : m.acc = 0 <;> simp [execute, branch, zero]
  | brp a => by_cases positive : 0 ≤ m.acc.toInt <;> simp [execute, branch, positive]
  | _ => simp [execute, branch]

/-- A branch goes to a cell. -/
theorem execute_branched {a : Nat} (branched : (m.execute policy i).1.branched = some a) :
    a < memorySize := by
  cases i <;> simp only [execute] at branched <;> (try split at branched) <;> cases branched <;>
    exact Fin.isLt _

/-- Only a store changes the memory. -/
theorem execute_memory (kept : ∀ a, i ≠ .sta a) : (m.execute policy i).2.memory = m.memory := by
  cases i with
  | sta a => exact absurd rfl (kept a)
  | _ => simp only [execute] <;> (try split) <;> rfl

/-- What an instruction puts out is in the accumulator. -/
theorem execute_output {v : Word} (put : (m.execute policy i).1.output = some v) : v = m.acc := by
  cases i with
  | out => exact (Option.some.inj put).symm
  | brz a | brp a =>
    simp only [execute] at put
    split at put <;> cases put
  | _ => cases put

end Execute

/-! ## Steps -/

/-- What a step does: its effect and the machine after it. -/
inductive Advance (flags : Flags) (m : Machine) : Effect → Machine → Prop
  /-- A halted machine does nothing. -/
  | idle (halted : m.status = .halted) : Advance flags m {} m
  /-- The counter is outside memory, which halts the machine. -/
  | outside (fetching : m.status = .fetching) (none : m.word? = none) :
      Advance flags m {} { m with halted := true }
  /-- A word that means no instruction is passed over. -/
  | skipped {word : Word} (fetching : m.status = .fetching) (found : m.word? = some word)
      (unknown : Instruction.decode word = none) (lenient : flags.strict = false) :
      Advance flags m { fetched := some m.pc.toNat } (m.fetch word).haltIfRanOff
  | executed {word : Word} {i : Instruction} (fetching : m.status = .fetching)
      (found : m.word? = some word) (known : Instruction.decode word = some i) :
      Advance flags m
        { ((m.fetch word).execute flags.policy i).1 with
          fetched := some m.pc.toNat, instruction := some i }
        ((m.fetch word).execute flags.policy i).2.haltIfRanOff

theorem step_ok_iff : m.step flags = .ok (e, next) ↔ Advance flags m e next := by
  constructor
  · intro taken
    unfold step at taken
    split at taken
    next halted => cases taken; exact .idle halted
    next => cases taken
    next fetching =>
      split at taken
      next none => cases taken; exact .outside fetching none
      next word found =>
        dsimp only at taken
        split at taken
        next i known => cases taken; exact .executed fetching found known
        next unknown =>
          split at taken
          next => cases taken
          next lenient =>
            cases taken
            exact .skipped fetching found unknown (by simpa using lenient)
  · rintro (halted | ⟨fetching, none⟩ | ⟨fetching, found, unknown, lenient⟩ |
      ⟨fetching, found, known⟩)
    · simp [step, halted]
    · simp [step, fetching, none]
    · simp [step, fetching, found, unknown, lenient]
    · simp [step, fetching, found, known]

/-- A step that fetched did so at the counter, and reports what the word there means. -/
theorem Advance.fetched {a : Nat} (advance : Advance flags m e next)
    (fetched : e.fetched = some a) :
    m.status = .fetching ∧ m.pc.toNat = a ∧
      ∃ word, m.word? = some word ∧ e.instruction = Instruction.decode word := by
  cases advance with
  | idle => cases fetched
  | outside => cases fetched
  | @skipped word fetching found unknown _ =>
    exact ⟨fetching, Option.some.inj fetched, word, found, unknown.symm⟩
  | @executed word i fetching found known =>
    exact ⟨fetching, Option.some.inj fetched, word, found, known.symm⟩

/-- The word that a step fetched was in memory. -/
theorem fetched_lt_of_step {a : Nat} (taken : m.step flags = .ok (e, next))
    (fetched : e.fetched = some a) : a < memorySize := by
  obtain ⟨-, rfl, word, found, -⟩ := (step_ok_iff.1 taken).fetched fetched
  exact (word?_eq_some.1 found).1

/-- A step that fetched nothing leaves a halted machine. -/
theorem Advance.halted_of_unfetched (advance : Advance flags m e next)
    (unfetched : e.fetched = none) : next.halted = true := by
  cases advance with
  | idle halted => exact status_halted.1 halted
  | outside => rfl
  | skipped => cases unfetched
  | executed => cases unfetched

theorem Advance.output_eq {v : Word} (advance : Advance flags m e next)
    (put : e.output = some v) : v = m.acc := by
  cases advance with
  | idle | outside | skipped => cases put
  | @executed word i => exact execute_output (m.fetch word) flags.policy i put

/-- A word that means an instruction is executed, strict or not. -/
theorem exists_step {word : Word} {i : Instruction} (flags : Flags)
    (fetching : m.status = .fetching)
    (found : m.word? = some word) (known : Instruction.decode word = some i) :
    ∃ e next, m.step flags = .ok (e, next) ∧ e.fetched = some m.pc.toNat ∧
      e.instruction = some i :=
  ⟨_, _, step_ok_iff.2 (.executed fetching found known), rfl, rfl⟩

/-- A step is refused while input is awaited, and in strict simulation at a word that means no
instruction. -/
theorem step_error_iff : m.step flags = .error fault ↔
    (m.status = .awaitingInput ∧ fault = .notReady) ∨
    (m.status = .fetching ∧ flags.strict = true ∧
      ∃ word, m.word? = some word ∧ Instruction.decode word = none ∧
        fault = .illegalWord word) := by
  constructor
  · intro refused
    unfold step at refused
    split at refused
    next => cases refused
    next awaiting => cases refused; exact .inl ⟨awaiting, rfl⟩
    next fetching =>
      split at refused
      next => cases refused
      next word found =>
        dsimp only at refused
        split at refused
        next => cases refused
        next unknown =>
          split at refused
          next strict => cases refused; exact .inr ⟨fetching, strict, word, found, unknown, rfl⟩
          next => cases refused
  · rintro (⟨awaiting, rfl⟩ | ⟨fetching, strict, word, found, unknown, rfl⟩)
    · simp [step, awaiting]
    · simp [step, fetching, found, unknown, strict]

/-! ## Inputs -/

/-- The machine with an input supplied, past the instruction that asked for it. -/
def supplied (policy : Policy) (m : Machine) (value : Word) : Machine :=
  haltIfRanOff { m with acc := policy.fit value.toInt, pending := false, pc := pastInput m.pc }

theorem resume_ok_iff {input : Text} : m.resume flags input = .ok next ↔
    m.status = .awaitingInput ∧
      ∃ value, Word.ofText? input = some value ∧ next = m.supplied flags.policy value := by
  unfold resume
  split
  next awaiting =>
    split
    next unread => simp [awaiting, unread]
    next value read => simp [awaiting, read, supplied, eq_comm]
  next other => simp [show m.status ≠ .awaitingInput from other]

/-- An input that was supplied is not awaited any more. -/
theorem status_supplied (policy : Policy) (value : Word) :
    (m.supplied policy value).status ≠ .awaitingInput := by
  simp [status_awaiting, supplied]

theorem resume_error_iff {input : Text} : m.resume flags input = .error fault ↔
    (m.status ≠ .awaitingInput ∧ fault = .notReady) ∨
    (m.status = .awaitingInput ∧ Word.ofText? input = none ∧ fault = .invalidInput input) := by
  unfold resume
  split
  next awaiting =>
    split
    next unread => simp [awaiting, unread, eq_comm]
    next value read => simp [awaiting, read]
  next other => simp [show m.status ≠ .awaitingInput from other, eq_comm]

end LittleMan.Machine
