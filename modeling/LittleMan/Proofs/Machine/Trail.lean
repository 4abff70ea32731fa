import LittleMan.Proofs.Machine.Step

/-!
# What steps do to the cells

Which cell a step fetches from, reads, stores to or branches to can be read off the machine before
it. The effect of the step reports the same, and the memory after it differs at the cell that is
stored to only (`reports_of_step`). A trail is what a machine does step by step: a cell that none of
its steps changed holds the word that it held before (`Trail.memory_eq`).
-/

namespace LittleMan

namespace Instruction

/-- The cell whose word the instruction uses as a number. -/
def source? : Instruction → Option Address
  | add a | sub a | lda a => some a
  | _ => none

/-- The cell that the instruction stores to. -/
def destination? : Instruction → Option Address
  | sta a => some a
  | _ => none

/-- The cell that the instruction branches to when this is in the accumulator. -/
def target? (acc : Word) : Instruction → Option Address
  | bra a => some a
  | brz a => if acc = 0 then some a else none
  | brp a => if 0 ≤ acc.toInt then some a else none
  | _ => none

end Instruction

namespace Machine

/-! ## Before a step -/

/-- The instruction that the next step executes, if the machine is ready for one. -/
def next? (m : Machine) : Option Instruction :=
  if m.status = .fetching then m.word?.bind Instruction.decode else none

/-- The next step fetches the word of this cell. -/
def fetchesFrom (m : Machine) (a : Nat) : Bool := m.status == .fetching && m.pc.toNat == a

/-- The next step uses the word of this cell as a number. -/
def reads (m : Machine) (a : Nat) : Bool := (m.next?.bind Instruction.source?).any (·.val == a)

def storesTo (m : Machine) (a : Nat) : Bool :=
  (m.next?.bind Instruction.destination?).any (·.val == a)

def branchesTo (m : Machine) (a : Nat) : Bool :=
  (m.next?.bind (Instruction.target? m.acc)).any (·.val == a)

/-- What a step reports of a cell is what could be read off the machine before it. -/
structure Reports (m : Machine) (e : Effect) (next : Machine) (a : Nat) (inside : a < memorySize) :
    Prop where
  fetched : (e.fetched == some a) = m.fetchesFrom a
  read : (e.read == some a) = m.reads a
  written : e.written.any (·.1 == a) = m.storesTo a
  changed : e.written = some (a, true) ↔ m.storesTo a = true ∧ m.memory[a] ≠ m.acc
  branched : (e.branched == some a) = m.branchesTo a
  memory : next.memory[a] = if m.storesTo a then m.acc else m.memory[a]

variable {m next last : Machine} {flags : Flags} {e : Effect} {a : Nat}

/-- A step that executes no instruction fetches at most, and leaves the memory. -/
theorem reports_of_idle (none : m.next? = none) (inside : a < memorySize) {fetched : Option Nat}
    (same : (fetched == some a) = m.fetchesFrom a) (memory : next.memory = m.memory) :
    m.Reports { fetched } next a inside where
  fetched := same
  read := by simp [reads, none]
  written := by simp [storesTo, none]
  changed := by simp [storesTo, none]
  branched := by simp [branchesTo, none]
  memory := by simp [storesTo, none, memory]

/-- What executing an instruction reports of a cell and leaves there. -/
theorem reports_of_execute {word : Word} {i : Instruction} (policy : Policy)
    (executes : m.next? = some i) (inside : a < memorySize) {fetched : Option Nat}
    (same : (fetched == some a) = m.fetchesFrom a) :
    m.Reports { ((m.fetch word).execute policy i).1 with fetched, instruction := some i }
      ((m.fetch word).execute policy i).2.haltIfRanOff a inside := by
  cases i with
  | sta b =>
    refine ⟨same, ?_, ?_, ?_, ?_, ?_⟩
    · simp [reads, executes, execute, Instruction.source?]
    · simp [storesTo, executes, execute, Instruction.destination?]
    · by_cases here : b.val = a
      · subst here
        have cell : m.memory.get b = m.memory[b.val] := rfl
        simp [storesTo, executes, execute, Instruction.destination?, cell]
      · simp [storesTo, executes, execute, Instruction.destination?, here]
    · simp [branchesTo, executes, execute, Instruction.target?]
    · by_cases here : b.val = a
      · subst here
        simp [storesTo, executes, execute, Instruction.destination?]
      · simp [storesTo, executes, execute, Instruction.destination?, here]
  | brz b =>
    by_cases zero : m.acc = 0 <;> refine ⟨same, ?_, ?_, ?_, ?_, ?_⟩ <;>
      simp [reads, storesTo, branchesTo, executes, execute, Instruction.source?,
        Instruction.destination?, Instruction.target?, zero, branch]
  | brp b =>
    by_cases positive : 0 ≤ m.acc.toInt <;> refine ⟨same, ?_, ?_, ?_, ?_, ?_⟩ <;>
      simp [reads, storesTo, branchesTo, executes, execute, Instruction.source?,
        Instruction.destination?, Instruction.target?, positive, branch]
  | _ =>
    refine ⟨same, ?_, ?_, ?_, ?_, ?_⟩ <;>
      simp [reads, storesTo, branchesTo, executes, execute, Instruction.source?,
        Instruction.destination?, Instruction.target?, branch]

/-- A step reports of each cell what it does there. -/
theorem reports_of_step (taken : m.step flags = .ok (e, next)) (inside : a < memorySize) :
    m.Reports e next a inside := by
  cases step_ok_iff.1 taken with
  | idle halted =>
    exact reports_of_idle (by simp [next?, halted]) inside (by simp [fetchesFrom, halted]) rfl
  | outside fetching none =>
    have beyond := word?_eq_none.1 none
    have elsewhere : m.pc.toNat ≠ a := by omega
    exact reports_of_idle (by simp [next?, none]) inside (by simp [fetchesFrom, elsewhere]) rfl
  | skipped fetching found unknown lenient =>
    exact reports_of_idle (by simp [next?, found, unknown]) inside (by simp [fetchesFrom, fetching])
      (by simp)
  | executed fetching found known =>
    exact reports_of_execute flags.policy (by simp [next?, fetching, found, known]) inside
      (by simp [fetchesFrom, fetching])

/-! ## Trails -/

/-- A step that was taken: the machine before it, and its effect. -/
structure Footstep where
  before : Machine
  effect : Effect

/-- The machine takes these steps, one after another, and then it is the last one. -/
inductive Trail (flags : Flags) : Machine → List Footstep → Machine → Prop
  | nil (m : Machine) : Trail flags m [] m
  | cons {m next last : Machine} {e : Effect} {steps : List Footstep}
      (taken : m.step flags = .ok (e, next)) (rest : Trail flags next steps last) :
      Trail flags m (⟨m, e⟩ :: steps) last

namespace Trail

variable {steps : List Footstep} {f : Footstep}

theorem exists_next (trail : Trail flags m steps last) (made : f ∈ steps) :
    ∃ next, f.before.step flags = .ok (f.effect, next) := by
  induction trail with
  | nil => cases made
  | cons taken rest ih =>
    rcases List.mem_cons.1 made with rfl | later
    · exact ⟨_, taken⟩
    · exact ih later

theorem exists_reports (trail : Trail flags m steps last) (made : f ∈ steps)
    (inside : a < memorySize) : ∃ next, f.before.Reports f.effect next a inside := by
  obtain ⟨next, taken⟩ := trail.exists_next made
  exact ⟨next, reports_of_step taken inside⟩

/-- A cell that no step put a different word into holds the word that it held before. -/
theorem memory_eq (trail : Trail flags m steps last) (inside : a < memorySize)
    (kept : ∀ f ∈ steps, f.before.storesTo a = true → f.before.memory[a] = f.before.acc) :
    last.memory[a] = m.memory[a] := by
  induction trail with
  | nil => rfl
  | @cons m next last e steps taken rest ih =>
    have first : next.memory[a] = m.memory[a] := by
      rw [(reports_of_step taken inside).memory]
      split
      next stores => exact (kept ⟨m, e⟩ List.mem_cons_self stores).symm
      next => rfl
    rw [ih fun f later => kept f (List.mem_cons_of_mem _ later), first]

end Trail
end Machine
end LittleMan
