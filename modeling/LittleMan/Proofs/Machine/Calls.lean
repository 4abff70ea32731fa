import LittleMan.Proofs.Instruction
import LittleMan.Proofs.Machine.Step

/-!
# Calls on a machine

A machine that is only stepped and supplied with input, in any order, never leaves the states that
`Consistent` describes, whatever memory it started on and however its program rewrites itself
(`consistent_afterCalls`). A machine that has halted stays as it is.
-/

namespace LittleMan

/-- What can be asked of a machine. -/
inductive Call where
  | step (flags : Flags)
  | resume (flags : Flags) (input : Text)
deriving DecidableEq, Repr

/-- The flags that a call is made under. -/
def Call.flags : Call → Flags
  | step flags => flags
  | resume flags _ => flags

namespace Machine

/-- The machine after a call. A call that is refused changes nothing. -/
def afterCall (m : Machine) : Call → Machine
  | .step flags =>
    match m.step flags with
    | .ok (_, next) => next
    | .error _ => m
  | .resume flags input =>
    match m.resume flags input with
    | .ok next => next
    | .error _ => m

/-- The machine after calls, the first of the list made first. -/
def afterCalls (m : Machine) (calls : List Call) : Machine := calls.foldl afterCall m

/-- What holds of a machine that was never set by hand. -/
structure Consistent (m : Machine) : Prop where
  pc_le : m.pc.toNat ≤ 100
  halted_of_end : m.pc.toNat = 100 → m.halted = true
  /-- A machine that awaits input stands at the instruction that asked for it. -/
  pending : m.pending = true →
    m.halted = false ∧ m.pc.toNat ≤ 99 ∧ m.memory[m.pc.toNat]? = some 901 ∧ m.ir = 901
  address : m.ar.toInt = m.ir.toInt.tmod 100
  /-- A halt has a reason: the end of memory, or a halt instruction just before the counter. -/
  halted : m.halted = true →
    m.pc.toNat = 100 ∨
      (Instruction.decode m.ir = some .hlt ∧
        ∃ a, a + 1 = m.pc.toNat ∧ m.memory[a]? = some m.ir)

theorem consistent_ofMemory (memory : Memory) : (ofMemory memory).Consistent where
  pc_le := Nat.zero_le 100
  halted_of_end h := by simp [ofMemory] at h
  pending h := by simp [ofMemory] at h
  address := rfl
  halted h := by simp [ofMemory] at h

variable {m next : Machine} {flags : Flags} {e : Effect}

/-- A consistent machine that is ready to fetch has its counter in memory. -/
theorem Consistent.pc_lt (consistent : m.Consistent) (fetching : m.status = .fetching) :
    m.pc.toNat < 100 := by
  have running := (status_fetching.1 fetching).1
  have le := consistent.pc_le
  have ne : m.pc.toNat ≠ 100 := fun atEnd => by simp [consistent.halted_of_end atEnd] at running
  omega

theorem toNat_pc_fetch (word : Word) (inside : m.pc.toNat < 100) :
    (m.fetch word).pc.toNat = m.pc.toNat + 1 := by
  have one : (1 : UInt8).toNat = 1 := rfl
  rw [fetch_pc, UInt8.toNat_add]
  omega

/-- A machine that moved on by one cell or to a cell is consistent, unless it awaits input or was
halted by its instruction. -/
theorem consistent_haltIfRanOff (le : m.pc.toNat ≤ 100) (running : m.halted = false)
    (ready : m.pending = false) (address : m.ar.toInt = m.ir.toInt.tmod 100) :
    m.haltIfRanOff.Consistent where
  pc_le := by simpa using le
  halted_of_end atEnd := by
    rw [haltIfRanOff_pc] at atEnd
    simp [atEnd]
  pending pending := by simp [ready] at pending
  address := by simpa using address
  halted halted := by
    have atEnd : 100 ≤ m.pc.toNat := by simpa [running] using halted
    left
    rw [haltIfRanOff_pc]
    exact Nat.le_antisymm le atEnd

/-- An instruction that does not ask for input leaves the counter in memory or just past it. -/
theorem toNat_pc_execute_le (policy : Policy) {i : Instruction} (le : m.pc.toNat ≤ 100)
    (asks : i ≠ .inp) : (m.execute policy i).2.pc.toNat ≤ 100 := by
  rw [execute_pc]
  cases branched : (m.execute policy i).1.branched with
  | none => simpa [asks] using le
  | some a =>
    have inside : a < 100 := execute_branched m policy i branched
    simp only [UInt8.toNat_ofNat']
    omega

/-- The halt instruction stops the machine one past the cell that it was fetched from. -/
theorem consistent_hlt {word : Word} (inside : m.pc.toNat < 100) (ready : m.pending = false)
    (found : m.word? = some word) (known : Instruction.decode word = some .hlt) (policy : Policy) :
    ((m.fetch word).execute policy .hlt).2.haltIfRanOff.Consistent where
  pc_le := by
    rw [haltIfRanOff_pc, execute_pc]
    exact Nat.le_trans (Nat.le_of_eq (toNat_pc_fetch word inside)) inside
  halted_of_end _ := by simp
  pending pending := by simp [ready] at pending
  address := by simpa using Word.toInt_remainder word
  halted _ := by
    right
    simp only [haltIfRanOff_ir, execute_ir, haltIfRanOff_pc, haltIfRanOff_memory]
    exact ⟨known, m.pc.toNat, (toNat_pc_fetch word inside).symm, found⟩

/-- The instruction for input takes the counter back to its cell, whose word can only be 901. -/
theorem consistent_inp {word : Word} (inside : m.pc.toNat < 100) (running : m.halted = false)
    (found : m.word? = some word) (known : Instruction.decode word = some .inp) (policy : Policy) :
    ((m.fetch word).execute policy .inp).2.haltIfRanOff.Consistent := by
  have same : ((m.fetch word).execute policy .inp).2.pc = m.pc := by
    simp [execute]
  have word_eq : word = 901 := (Instruction.encode_of_decode known (by decide)).symm
  have goesOn : ((m.fetch word).execute policy .inp).2.haltIfRanOff.halted = false := by
    simpa only [haltIfRanOff_halted, execute_halted, fetch_halted, running, same,
      reduceCtorEq, decide_false, Bool.or_self, Bool.false_or, decide_eq_false_iff_not, Nat.not_le]
      using inside
  refine ⟨?_, ?_, ?_, ?_, ?_⟩
  · simpa [same] using Nat.le_of_lt inside
  · intro atEnd
    rw [haltIfRanOff_pc, same] at atEnd
    omega
  · intro _
    simp only [haltIfRanOff_pc, same, haltIfRanOff_memory, haltIfRanOff_ir, execute_ir]
    exact ⟨goesOn, Nat.le_of_lt_succ inside, word_eq ▸ found, word_eq⟩
  · simpa using Word.toInt_remainder word
  · intro halted
    rw [goesOn] at halted
    cases halted

/-- A step keeps a machine consistent. -/
theorem Advance.consistent (advance : Advance flags m e next) (consistent : m.Consistent) :
    next.Consistent := by
  cases advance with
  | idle => exact consistent
  | outside fetching none =>
    have outside := word?_eq_none.1 none
    have inside := consistent.pc_lt fetching
    exact absurd inside (Nat.not_lt.2 outside)
  | @skipped word fetching found unknown lenient =>
    have inside := consistent.pc_lt fetching
    obtain ⟨running, ready⟩ := status_fetching.1 fetching
    apply consistent_haltIfRanOff
    · rw [toNat_pc_fetch word inside]; exact inside
    · exact running
    · exact ready
    · exact Word.toInt_remainder word
  | @executed word i fetching found known =>
    have inside := consistent.pc_lt fetching
    obtain ⟨running, ready⟩ := status_fetching.1 fetching
    by_cases halts : i = .hlt
    · subst halts
      exact consistent_hlt inside ready found known flags.policy
    · by_cases asks : i = .inp
      · subst asks
        exact consistent_inp inside running found known flags.policy
      · apply consistent_haltIfRanOff
        · refine toNat_pc_execute_le flags.policy ?_ asks
          rw [toNat_pc_fetch word inside]
          exact inside
        · simp [running, halts]
        · simp [ready, asks]
        · simpa using Word.toInt_remainder word

/-- The supply of an input keeps a machine consistent. -/
theorem consistent_supplied (consistent : m.Consistent) (awaiting : m.status = .awaitingInput)
    (policy : Policy) (value : Word) : (m.supplied policy value).Consistent := by
  obtain ⟨running, pending⟩ := status_awaiting.1 awaiting
  obtain ⟨-, inside, -, -⟩ := consistent.pending pending
  apply consistent_haltIfRanOff
  · show (pastInput m.pc).toNat ≤ 100
    have notLast : m.pc ≠ 255 := fun last => by simp [last] at inside
    have one : (1 : UInt8).toNat = 1 := rfl
    rw [pastInput, if_neg notLast, UInt8.toNat_add]
    omega
  · exact running
  · rfl
  · exact consistent.address

theorem consistent_afterCall (consistent : m.Consistent) (call : Call) :
    (m.afterCall call).Consistent := by
  cases call with
  | step flags =>
    cases taken : m.step flags with
    | ok result =>
      obtain ⟨e, next⟩ := result
      simpa [afterCall, taken] using (step_ok_iff.1 taken).consistent consistent
    | error fault => simpa [afterCall, taken] using consistent
  | resume flags input =>
    cases supplied : m.resume flags input with
    | ok next =>
      obtain ⟨awaiting, value, -, rfl⟩ := resume_ok_iff.1 supplied
      simpa [afterCall, supplied] using consistent_supplied consistent awaiting flags.policy value
    | error fault => simpa [afterCall, supplied] using consistent

theorem consistent_afterCalls_of_consistent (consistent : m.Consistent) (calls : List Call) :
    (m.afterCalls calls).Consistent := by
  induction calls generalizing m with
  | nil => exact consistent
  | cons call calls ih => exact ih (consistent_afterCall consistent call)

/-- Nothing that is asked of a halted machine changes it. -/
theorem afterCalls_halted (halted : m.halted = true) (calls : List Call) :
    m.afterCalls calls = m := by
  have status := status_halted.2 halted
  have unchanged : ∀ call, m.afterCall call = m := by
    intro call
    cases call with
    | step flags => simp [afterCall, step, status]
    | resume flags input => simp [afterCall, resume, status]
  induction calls with
  | nil => rfl
  | cons call calls ih =>
    rw [afterCalls, List.foldl_cons, unchanged call]
    exact ih

/-- Whatever is asked of a machine from its start on, it is consistent after each call, and once it
has halted nothing changes it any more. -/
theorem consistent_afterCalls (memory : Memory) (calls : List Call) :
    ((ofMemory memory).afterCalls calls).Consistent ∧
      (((ofMemory memory).afterCalls calls).halted = true →
        ∀ more, ((ofMemory memory).afterCalls calls).afterCalls more =
          (ofMemory memory).afterCalls calls) := by
  constructor
  · exact consistent_afterCalls_of_consistent (consistent_ofMemory memory) calls
  · intro halted more
    exact afterCalls_halted halted more

end Machine
end LittleMan
