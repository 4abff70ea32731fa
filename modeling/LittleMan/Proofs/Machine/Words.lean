import LittleMan.Proofs.Machine.Calls

/-!
# The words that a machine holds

A result is fitted into the accumulator, and all other words that a machine holds were in it before:
a load and a store copy them. So a kind of words that results are fitted into is kept by the
accumulator and all cells together (`AllWords.afterCalls`).
-/

namespace LittleMan.Machine

variable {m next : Machine} {flags : Flags} {e : Effect} {policy : Policy} {i : Instruction}
  {kind : Word → Prop}

/-- The accumulator and all cells hold words of a kind. -/
structure AllWords (kind : Word → Prop) (m : Machine) : Prop where
  acc : kind m.acc
  memory : ∀ (a : Nat) (inside : a < memorySize), kind m.memory[a]

/-- An instruction leaves the accumulator, loads a cell into it, or fits a result into it. -/
theorem execute_acc (m : Machine) (policy : Policy) (i : Instruction) :
    (m.execute policy i).2.acc = m.acc ∨
      (∃ a, i = .lda a ∧ (m.execute policy i).2.acc = m.memory.get a) ∨
        ∃ n, (m.execute policy i).2.acc = policy.fit n := by
  cases i with
  | add a => exact .inr (.inr ⟨_, rfl⟩)
  | sub a => exact .inr (.inr ⟨_, rfl⟩)
  | lda a => exact .inr (.inl ⟨a, rfl, rfl⟩)
  | brz a => left; simp only [execute]; split <;> rfl
  | brp a => left; simp only [execute]; split <;> rfl
  | sta a | bra a | inp | out | hlt => exact .inl rfl

theorem Advance.acc_cases (advance : Advance flags m e next) :
    next.acc = m.acc ∨ (∃ a, e.instruction = some (.lda a) ∧ next.acc = m.memory.get a) ∨
      ∃ n, next.acc = flags.policy.fit n := by
  cases advance with
  | idle | outside => exact .inl rfl
  | skipped => exact .inl (by simp)
  | @executed word i fetching found known =>
    rw [haltIfRanOff_acc]
    rcases execute_acc (m.fetch word) flags.policy i with same | ⟨a, rfl, loaded⟩ | fitted
    · exact .inl same
    · exact .inr (.inl ⟨a, rfl, loaded⟩)
    · exact .inr (.inr fitted)

theorem AllWords.of_same (words : m.AllWords kind) (acc : next.acc = m.acc)
    (memory : next.memory = m.memory) : next.AllWords kind :=
  ⟨acc ▸ words.acc, memory ▸ words.memory⟩

theorem AllWords.execute (words : m.AllWords kind) (fits : ∀ n, kind (policy.fit n)) :
    (m.execute policy i).2.AllWords kind where
  acc := by
    rcases execute_acc m policy i with same | ⟨a, -, loaded⟩ | ⟨n, fitted⟩
    · rw [same]
      exact words.acc
    · rw [loaded]
      exact words.memory a.val a.isLt
    · rw [fitted]
      exact fits n
  memory b inside := by
    by_cases stores : ∃ a, i = .sta a
    · obtain ⟨a, rfl⟩ := stores
      simp only [Machine.execute, Vector.getElem_set]
      split
      · exact words.acc
      · exact words.memory b inside
    · have same := execute_memory m policy i fun a store => stores ⟨a, store⟩
      simpa only [same] using words.memory b inside

theorem Advance.allWords (advance : Advance flags m e next) (words : m.AllWords kind)
    (fits : ∀ n, kind (flags.policy.fit n)) : next.AllWords kind := by
  cases advance with
  | idle => exact words
  | outside => exact words.of_same rfl rfl
  | skipped => exact words.of_same (by simp) (by simp)
  | @executed word i fetching found known =>
    have fetched : (m.fetch word).AllWords kind := words.of_same rfl rfl
    have executed : ((m.fetch word).execute flags.policy i).2.AllWords kind := fetched.execute fits
    exact executed.of_same (by simp) (by simp)

theorem AllWords.supplied (words : m.AllWords kind) (fits : ∀ n, kind (policy.fit n))
    (value : Word) : (m.supplied policy value).AllWords kind := by
  have fitted : kind (policy.fit value.toInt) := fits _
  exact ⟨by simpa [Machine.supplied] using fitted, by simpa [Machine.supplied] using words.memory⟩

theorem AllWords.afterCall (words : m.AllWords kind) {call : Call}
    (fits : ∀ n, kind (call.flags.policy.fit n)) : (m.afterCall call).AllWords kind := by
  cases call with
  | step flags =>
    cases taken : m.step flags with
    | ok result => simpa [Machine.afterCall, taken] using (step_ok_iff.1 taken).allWords words fits
    | error fault => simpa [Machine.afterCall, taken] using words
  | resume flags input =>
    cases supplied : m.resume flags input with
    | ok next =>
      obtain ⟨-, value, -, rfl⟩ := resume_ok_iff.1 supplied
      have kept : (m.supplied flags.policy value).AllWords kind := words.supplied fits value
      simpa [Machine.afterCall, supplied] using kept
    | error fault => simpa [Machine.afterCall, supplied] using words

theorem AllWords.afterCalls (words : m.AllWords kind) {calls : List Call}
    (fits : ∀ call ∈ calls, ∀ n, kind (call.flags.policy.fit n)) :
    (m.afterCalls calls).AllWords kind := by
  induction calls generalizing m with
  | nil => exact words
  | cons call calls ih =>
    rw [List.forall_mem_cons] at fits
    exact ih (words.afterCall fits.1) fits.2

end LittleMan.Machine
