import LittleMan.Proofs.Machine.Calls
import LittleMan.Proofs.Text.Decimal
import Mathlib.Algebra.Group.Int.Defs

/-!
# Work in place

A machine can be worked on in place, one register after another: a cell is looked up by its number,
the counter is moved to a number, and a sum is formed in 64 bits. Each of these has bounds. From
every state, also one that no program leads to, a step and the supply of an input stay within all of
them, and one that is refused leaves every register as it was (`step_in_bounds`). So does every
series of calls (`attemptAll_eq`).
-/

namespace LittleMan

/-- Why work in place comes to a stop: the machine refuses it, or it would leave a bound. -/
inductive Work.Stop where
  | refused (fault : Fault)
  /-- No cell has the number. -/
  | noCell (number : Int)
  /-- The counter does not hold the number. -/
  | counterOverflow (number : Int)
  /-- 64 bits do not hold the sum. -/
  | sumOverflow (sum : Int)

/-- Work on a machine in place. What was changed before a stop stays changed. -/
abbrev Work := EStateM Work.Stop Machine

namespace Work

/-! ## Bounded operations -/

def cell? (number : Int) : Option Address :=
  if inside : 0 ≤ number ∧ number < 100 then
    some ⟨number.toNat, (Int.toNat_lt inside.1).2 inside.2⟩
  else none

/-- The word of the cell with this number. -/
def load (number : Int) : Work Word := fun m =>
  match cell? number with
  | some a => .ok (m.memory.get a) m
  | none => .error (.noCell number) m

def store (number : Int) (word : Word) : Work Unit := fun m =>
  match cell? number with
  | some a => .ok () { m with memory := m.memory.set a.val word a.isLt }
  | none => .error (.noCell number) m

/-- Sets the counter, which has eight bits. -/
def moveTo (number : Int) : Work Unit := fun m =>
  if 0 ≤ number ∧ number ≤ 255 then .ok () { m with pc := UInt8.ofNat number.toNat }
  else .error (.counterOverflow number) m

/-- Fits a sum of 64 bits into the accumulator. -/
def accumulate (policy : Policy) (sum : Int) : Work Unit := fun m =>
  if -2 ^ 63 ≤ sum ∧ sum < 2 ^ 63 then .ok () { m with acc := policy.fit sum }
  else .error (.sumOverflow sum) m

/-! ## Steps and inputs -/

def branchTo (number : Int) : Work Effect := do
  moveTo number
  return { branched := some number.toNat }

/-- Executes an instruction that was fetched from an address. The cell that it is about is the one
whose number its word holds beside the operation. -/
def execute (policy : Policy) (address : Nat) (number : Int) : Instruction → Work Effect
  | .add _ => do
    let word ← load number
    accumulate policy ((← get).acc.toInt + word.toInt)
    return { read := some number.toNat }
  | .sub _ => do
    let word ← load number
    accumulate policy ((← get).acc.toInt - word.toInt)
    return { read := some number.toNat }
  | .sta _ => do
    let word ← load number
    let acc := (← get).acc
    store number acc
    return { written := some (number.toNat, word != acc) }
  | .lda _ => do
    let word ← load number
    modify fun m => { m with acc := word }
    return { read := some number.toNat }
  | .bra _ => branchTo number
  | .brz _ => do if (← get).acc = 0 then branchTo number else return {}
  | .brp _ => do if 0 ≤ (← get).acc.toInt then branchTo number else return {}
  | .inp => do
    moveTo address
    modify fun m => { m with pending := true }
    return {}
  | .out => do return { output := some (← get).acc }
  | .hlt => do
    modify fun m => { m with halted := true }
    return {}

/-- Fetches the word at the counter and executes the instruction that it means. -/
def fetchAndExecute (flags : Flags) : Work Effect := do
  let address := (← get).pc.toNat
  let word ← load address
  let instruction := Instruction.decode word
  if instruction.isNone && flags.strict then throw (.refused (.illegalWord word))
  else
    moveTo (address + 1)
    modify fun m => { m with ir := word, ar := word.remainder }
    let effect ← match instruction with
      | some i => execute flags.policy address word.remainder.toInt i
      | none => pure {}
    modify Machine.haltIfRanOff
    return { effect with fetched := some address, instruction }

def step (flags : Flags) : Work Effect := do
  match (← get).status with
  | .halted => return {}
  | .awaitingInput => throw (.refused .notReady)
  | .fetching =>
    modify Machine.haltIfRanOff
    if (← get).halted then return {} else fetchAndExecute flags

def resume (flags : Flags) (input : Text) : Work Unit := do
  match (← get).status with
  | .awaitingInput =>
    match Word.ofText? input with
    | none => throw (.refused (.invalidInput input))
    | some value =>
      accumulate flags.policy value.toInt
      modify fun m => { m with pending := false }
      moveTo (min ((← get).pc.toNat + 1) 255)
      modify Machine.haltIfRanOff
  | _ => throw (.refused .notReady)

/-- Makes a call. One that is refused is passed over, with whatever it has changed by then. -/
def attempt (call : Call) : Work Unit :=
  tryCatch
    (match call with
    | .step flags => discard (step flags)
    | .resume flags input => resume flags input)
    fun
    | .refused _ => pure ()
    | stop => throw stop

/-- Makes calls, the first of the list first. -/
def attemptAll : List Call → Work Unit
  | [] => pure ()
  | call :: calls => do
    attempt call
    attemptAll calls

/-- The end of work that gives an answer of the machine: a result and the machine after it, or a
refusal, and then the machine is as it was. -/
def ended {α : Type} (m : Machine) : Except Fault (α × Machine) → EStateM.Result Stop Machine α
  | .ok (a, next) => .ok a next
  | .error fault => .error (.refused fault) m

variable {α β : Type} {m next : Machine} {number : Int} {a : α} {policy : Policy} {flags : Flags}

/-! ## Within the bounds -/

theorem bind_of_ok {work : Work α} (done : work m = .ok a next) (f : α → Work β) :
    (work >>= f) m = f a next := by
  change EStateM.bind work f m = f a next
  rw [EStateM.bind, done]

theorem get_bind (f : Machine → Work β) : (get >>= f) m = f m m := rfl

theorem modify_bind (change : Machine → Machine) (f : Unit → Work β) :
    (modify change >>= f) m = f () (change m) := rfl

theorem tryCatch_eq (work : Work α) (recover : Stop → Work α) :
    tryCatch work recover m =
      match work m with
      | .ok a next => .ok a next
      | .error stop next => recover stop next := by
  change EStateM.tryCatch work recover m = _
  delta EStateM.tryCatch
  dsimp only
  cases work m <;> rfl

theorem cell?_val (a : Address) : cell? a.val = some a := by
  have below : (a.val : Int) < 100 := Int.ofNat_lt.2 a.isLt
  rw [cell?, dif_pos ⟨Int.natCast_nonneg _, below⟩]
  rfl

theorem load_val (a : Address) : load a.val m = .ok (m.memory.get a) m := by
  rw [load, cell?_val]

theorem store_val (a : Address) (word : Word) :
    store a.val word m = .ok () { m with memory := m.memory.set a.val word a.isLt } := by
  rw [store, cell?_val]

theorem moveTo_of_le {address : Nat} (le : address ≤ 255) :
    moveTo address m = .ok () { m with pc := UInt8.ofNat address } := by
  rw [moveTo, if_pos (by omega)]
  rfl

/-- The counter stops at its last number. -/
theorem moveTo_pastInput (m : Machine) :
    moveTo (min (m.pc.toNat + 1) 255) m = .ok () { m with pc := Machine.pastInput m.pc } := by
  have last : (255 : UInt8).toNat = 255 := rfl
  by_cases atLast : m.pc = 255
  · have stays : min ((m.pc.toNat : Int) + 1) 255 = (255 : Nat) := by
      rw [atLast, last]
      rfl
    rw [stays, moveTo_of_le (Nat.le_refl _), Machine.pastInput, if_pos atLast]
    rfl
  · have below : m.pc.toNat < 255 := by
      have bound := m.pc.toNat_lt
      have other : m.pc.toNat ≠ 255 := fun same => atLast (UInt8.toNat_inj.1 same)
      omega
    have moves : min ((m.pc.toNat : Int) + 1) 255 = (m.pc.toNat + 1 : Nat) := by
      omega
    rw [moves, moveTo_of_le below, Machine.pastInput, if_neg atLast]
    simp

theorem accumulate_of_fits {sum : Int} (low : -2 ^ 32 ≤ sum) (high : sum ≤ 2 ^ 32) :
    accumulate policy sum m = .ok () { m with acc := policy.fit sum } := by
  rw [accumulate, if_pos (by omega)]

/-- Two words have a sum and a difference of 33 bits. -/
theorem sum_fits (v w : Word) :
    (-2 ^ 32 ≤ v.toInt + w.toInt ∧ v.toInt + w.toInt ≤ 2 ^ 32) ∧
      -2 ^ 32 ≤ v.toInt - w.toInt ∧ v.toInt - w.toInt ≤ 2 ^ 32 := by
  have vLow := v.le_toInt
  have vHigh := v.toInt_lt
  have wLow := w.le_toInt
  have wHigh := w.toInt_lt
  omega

theorem branchTo_val (a : Address) :
    branchTo a.val m = .ok { branched := some a.val } (m.branch a) := by
  have le : a.val ≤ 255 := by
    have inside : a.val < 100 := a.isLt
    omega
  rw [branchTo, bind_of_ok (moveTo_of_le le)]
  rfl

/-- An instruction that has been fetched is executed within the bounds. -/
theorem execute_eq (policy : Policy) {word : Word} {i : Instruction} (inside : m.pc.toNat < 100)
    (known : Instruction.decode word = some i) :
    execute policy m.pc.toNat word.remainder.toInt i (m.fetch word) =
      .ok ((m.fetch word).execute policy i).1 ((m.fetch word).execute policy i).2 := by
  cases i with
  | add a =>
    obtain ⟨⟨low, high⟩, -⟩ := sum_fits (m.fetch word).acc ((m.fetch word).memory.get a)
    rw [Instruction.toInt_remainder_of_decode known rfl, execute, bind_of_ok (load_val a),
      get_bind, bind_of_ok (accumulate_of_fits low high)]
    rfl
  | sub a =>
    obtain ⟨-, low, high⟩ := sum_fits (m.fetch word).acc ((m.fetch word).memory.get a)
    rw [Instruction.toInt_remainder_of_decode known rfl, execute, bind_of_ok (load_val a),
      get_bind, bind_of_ok (accumulate_of_fits low high)]
    rfl
  | sta a =>
    rw [Instruction.toInt_remainder_of_decode known rfl, execute, bind_of_ok (load_val a),
      get_bind, bind_of_ok (store_val a _)]
    rfl
  | lda a =>
    rw [Instruction.toInt_remainder_of_decode known rfl, execute, bind_of_ok (load_val a),
      modify_bind]
    rfl
  | bra a => rw [Instruction.toInt_remainder_of_decode known rfl, execute, branchTo_val]; rfl
  | brz a =>
    rw [Instruction.toInt_remainder_of_decode known rfl, execute, get_bind, Machine.execute]
    by_cases zero : (m.fetch word).acc = 0
    · rw [if_pos zero, if_pos zero, branchTo_val]
    · rw [if_neg zero, if_neg zero]
      rfl
  | brp a =>
    rw [Instruction.toInt_remainder_of_decode known rfl, execute, get_bind, Machine.execute]
    by_cases positive : 0 ≤ (m.fetch word).acc.toInt
    · rw [if_pos positive, if_pos positive, branchTo_val]
    · rw [if_neg positive, if_neg positive]
      rfl
  | inp =>
    rw [execute, bind_of_ok (moveTo_of_le (by omega)), modify_bind]
    have back : UInt8.ofNat m.pc.toNat = (m.fetch word).pc - 1 := by
      simp
    rw [Machine.execute, ← back]
    rfl
  | out | hlt => rfl

/-- The word at a counter inside memory is found, and the counter has room for its move past it. -/
theorem fetchAndExecute_eq (fetching : m.status = .fetching) (inside : m.pc.toNat < 100) :
    fetchAndExecute flags m = ended m (m.step flags) := by
  obtain ⟨word, found⟩ : ∃ word, m.word? = some word :=
    ⟨m.memory[m.pc.toNat], Machine.word?_eq_some.2 ⟨inside, rfl⟩⟩
  have loaded : load m.pc.toNat m = .ok word m := by
    obtain ⟨_, same⟩ := Machine.word?_eq_some.1 found
    subst same
    exact load_val ⟨m.pc.toNat, inside⟩
  have moved : moveTo (m.pc.toNat + 1) m = .ok () { m with pc := m.pc + 1 } := by
    have next : UInt8.ofNat (m.pc.toNat + 1) = m.pc + 1 := by
      simp
    rw [← next]
    exact moveTo_of_le (Nat.le_trans inside (by decide))
  rw [fetchAndExecute, get_bind, bind_of_ok loaded]
  cases known : Instruction.decode word with
  | some i =>
    have executed := execute_eq flags.policy inside known
    simp only [Machine.step, fetching, found, known, Option.isNone_some, Bool.false_and]
    rw [if_neg Bool.false_ne_true, bind_of_ok moved, modify_bind]
    exact bind_of_ok executed _
  | none =>
    by_cases strict : flags.strict = true
    · simp only [Machine.step, fetching, found, known, strict]
      rfl
    · simp only [Machine.step, fetching, found, known, strict, Option.isNone_none, Bool.true_and]
      rw [if_neg Bool.false_ne_true, bind_of_ok moved, modify_bind]
      rfl

theorem step_eq (m : Machine) (flags : Flags) : step flags m = ended m (m.step flags) := by
  rw [step, get_bind]
  cases status : m.status with
  | halted | awaitingInput =>
    rw [Machine.step, status]
    rfl
  | fetching =>
    dsimp only
    rw [modify_bind, get_bind]
    obtain ⟨running, -⟩ := Machine.status_fetching.1 status
    by_cases inside : m.pc.toNat < 100
    · have same : m.haltIfRanOff = m := by
        rw [Machine.haltIfRanOff, if_neg (by simpa [Machine.ranOff] using inside)]
      rw [same, running]
      exact fetchAndExecute_eq status inside
    · have off : m.ranOff = true := by simpa [Machine.ranOff] using inside
      have none : m.word? = none := Machine.word?_eq_none.2 (Nat.not_lt.1 inside)
      rw [Machine.haltIfRanOff, if_pos off, Machine.step, status, none]
      rfl

/-- An input is a word, so 64 bits hold it. -/
theorem resume_eq (m : Machine) (flags : Flags) (input : Text) :
    resume flags input m = ended m ((m.resume flags input).map fun next => ((), next)) := by
  rw [resume, get_bind, Machine.resume]
  cases status : m.status with
  | halted | fetching => rfl
  | awaitingInput =>
    cases read : Word.ofText? input with
    | none => rfl
    | some value =>
      have low := value.le_toInt
      have high := value.toInt_lt
      dsimp only
      rw [bind_of_ok (accumulate_of_fits (by omega) (by omega)), modify_bind, get_bind]
      exact bind_of_ok (moveTo_pastInput _) _

theorem attempt_eq (m : Machine) (call : Call) : attempt call m = .ok () (m.afterCall call) := by
  cases call with
  | step flags =>
    have discarded : discard (step flags) m = EStateM.map (fun _ => ()) (step flags) m := rfl
    rw [attempt, tryCatch_eq, discarded, EStateM.map, step_eq, Machine.afterCall]
    cases m.step flags <;> rfl
  | resume flags input =>
    rw [attempt, tryCatch_eq, resume_eq, Machine.afterCall]
    cases m.resume flags input <;> rfl

/-- Calls in a row stay within the bounds, and leave the machine that the calls leave. -/
theorem attemptAll_eq (m : Machine) (calls : List Call) :
    attemptAll calls m = .ok () (m.afterCalls calls) := by
  induction calls generalizing m with
  | nil => rfl
  | cons call calls ih => rw [attemptAll, bind_of_ok (attempt_eq m call), ih]; rfl

theorem ended_error_iff {answer : Except Fault (α × Machine)} {stop : Stop} :
    ended m answer = .error stop next ↔
      ∃ fault, answer = .error fault ∧ stop = .refused fault ∧ next = m := by
  cases answer with
  | ok result => simp [ended]
  | error fault => simp [ended, eq_comm]

theorem step_eq_error_iff {stop : Stop} : step flags m = .error stop next ↔
    ((m.status = .awaitingInput ∧ stop = .refused .notReady) ∨
      (m.status = .fetching ∧ flags.strict = true ∧
        ∃ a : Address, m.pc.toNat = a.val ∧ Instruction.decode (m.memory.get a) = none ∧
          stop = .refused (.illegalWord (m.memory.get a)))) ∧
    next = m := by
  rw [step_eq, ended_error_iff]
  constructor
  · rintro ⟨fault, refused, rfl, rfl⟩
    obtain ⟨awaiting, rfl⟩ | ⟨fetching, strict, word, found, unknown, rfl⟩ :=
      Machine.step_error_iff.1 refused
    · exact ⟨.inl ⟨awaiting, rfl⟩, rfl⟩
    · obtain ⟨inside, rfl⟩ := Machine.word?_eq_some.1 found
      exact ⟨.inr ⟨fetching, strict, ⟨_, inside⟩, rfl, unknown, rfl⟩, rfl⟩
  · rintro ⟨⟨awaiting, rfl⟩ | ⟨fetching, strict, a, counter, unknown, rfl⟩, rfl⟩
    · exact ⟨_, Machine.step_error_iff.2 (.inl ⟨awaiting, rfl⟩), rfl, rfl⟩
    · have found : next.word? = some (next.memory.get a) := by
        rw [Machine.word?, counter]
        exact Vector.getElem?_eq_getElem a.isLt
      have refused := Machine.step_error_iff.2 (.inr ⟨fetching, strict, _, found, unknown, rfl⟩)
      exact ⟨_, refused, rfl, rfl⟩

theorem resume_eq_error_iff {input : Text} {stop : Stop} :
    resume flags input m = .error stop next ↔
      ((m.status ≠ .awaitingInput ∧ stop = .refused .notReady) ∨
        (m.status = .awaitingInput ∧
          (¬∃ n, Decimal.Writes input n ∧ -2147483648 ≤ n ∧ n ≤ 2147483647) ∧
          stop = .refused (.invalidInput input))) ∧
      next = m := by
  rw [resume_eq, ended_error_iff, ← Word.ofText?_eq_none_iff]
  constructor
  · rintro ⟨fault, refused, rfl, rfl⟩
    cases answer : next.resume flags input with
    | ok after => rw [answer] at refused; cases refused
    | error other =>
      rw [answer] at refused
      cases refused
      obtain ⟨unready, rfl⟩ | ⟨awaiting, unread, rfl⟩ := Machine.resume_error_iff.1 answer
      · exact ⟨.inl ⟨unready, rfl⟩, rfl⟩
      · exact ⟨.inr ⟨awaiting, unread, rfl⟩, rfl⟩
  · rintro ⟨⟨unready, rfl⟩ | ⟨awaiting, unread, rfl⟩, rfl⟩
    · refine ⟨.notReady, ?_, rfl, rfl⟩
      rw [Machine.resume_error_iff.2 (.inl ⟨unready, rfl⟩)]
      rfl
    · refine ⟨.invalidInput input, ?_, rfl, rfl⟩
      rw [Machine.resume_error_iff.2 (.inr ⟨awaiting, unread, rfl⟩)]
      rfl

/-- From every state a step and an input come to the same end in place as they do on the whole
machine, which knows no bounds. They end in an error only for the reasons that are given here, and
then the machine after it is the machine before. -/
theorem step_in_bounds (m : Machine) (flags : Flags) (input : Text) :
    (step flags m = ended m (m.step flags) ∧
      resume flags input m = ended m ((m.resume flags input).map fun next => ((), next))) ∧
    (∀ stop after, step flags m = .error stop after ↔
      ((m.status = .awaitingInput ∧ stop = .refused .notReady) ∨
        (m.status = .fetching ∧ flags.strict = true ∧
          ∃ a : Address, m.pc.toNat = a.val ∧ Instruction.decode (m.memory.get a) = none ∧
            stop = .refused (.illegalWord (m.memory.get a)))) ∧
      after = m) ∧
    (∀ stop after, resume flags input m = .error stop after ↔
      ((m.status ≠ .awaitingInput ∧ stop = .refused .notReady) ∨
        (m.status = .awaitingInput ∧
          (¬∃ n, Decimal.Writes input n ∧ -2147483648 ≤ n ∧ n ≤ 2147483647) ∧
          stop = .refused (.invalidInput input))) ∧
      after = m) := by
  refine ⟨⟨step_eq m flags, resume_eq m flags input⟩, ?_, ?_⟩
  · intro stop after
    exact step_eq_error_iff
  · intro stop after
    exact resume_eq_error_iff

end Work
end LittleMan
