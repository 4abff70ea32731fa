import LittleMan.Proofs.Machine.Calls
import LittleMan.Proofs.Machine.Trail

/-!
# What the effect of a step tells

The effect is all that is kept of a step: breakpoints, activity, outputs and the count of instructions
are taken from it, and not from the machine. It tells which cell changed and to what, whether the
accumulator can have changed, what was put out, and what every other register holds after the step
(`step_tells`).
-/

namespace LittleMan.Machine

/-- A flag goes up for this cause and for no other, and it does not go down. -/
structure RaisedFor (before after : Bool) (cause : Prop) : Prop where
  rises : before = false ∧ after = true ↔ cause
  stays : before = true → after = true

/-- The word of a cell was fetched: the registers hold it and its parts, and the counter is where the
effect says. -/
structure FetchedFrom (m : Machine) (e : Effect) (next : Machine) (a : Nat) : Prop where
  ready : m.status = .fetching
  counter : m.pc.toNat = a
  word : m.memory[a]? = some next.ir
  instruction : e.instruction = Instruction.decode next.ir
  address : next.ar.toInt = next.ir.toInt.tmod 100
  /-- The counter is at the cell that was branched to, or past the one that was fetched from, unless
  its instruction waits there for input. -/
  goesTo : next.pc.toNat =
    match e.branched with
    | some target => target
    | none => if e.instruction = some .inp then a else a + 1

/-- What the effect of a step tells of the machine after it. -/
structure Tells (m : Machine) (e : Effect) (next : Machine) : Prop where
  /-- The cell that was stored to holds the accumulator. -/
  stored : ∀ a changed, e.written = some (a, changed) → ∃ inside : a < memorySize,
    next.memory[a] = m.acc ∧ (changed = true ↔ m.memory[a] ≠ m.acc)
  kept : ∀ (a : Nat) (inside : a < memorySize), (∀ changed, e.written ≠ some (a, changed)) →
    next.memory[a] = m.memory[a]
  /-- Of a cell that is read, a cell that is stored to, an output and a branch, there is one at
  most. -/
  single :
    [e.read.isSome, e.written.isSome, e.output.isSome, e.branched.isSome].count true ≤ 1
  acc : next.acc ≠ m.acc → e.read.isSome = true
  output : ∀ v, e.output = some v → v = m.acc
  fetched : ∀ a, e.fetched = some a → FetchedFrom m e next a
  /-- A step that fetches nothing halts a machine that has left the memory, and does nothing else. -/
  unfetched : e.fetched = none → e = {} ∧ next = { m with halted := next.halted } ∧
    RaisedFor m.halted next.halted (m.status = .fetching ∧ 100 ≤ m.pc.toNat)
  pending : RaisedFor m.pending next.pending (e.instruction = some .inp)
  halted : e.fetched.isSome = true →
    RaisedFor m.halted next.halted (e.instruction = some .hlt ∨ next.pc.toNat = 100)

variable {m next next' last : Machine} {flags : Flags} {e : Effect} {a : Nat}

/-! ## Flags -/

section Flags

variable {before after after' : Bool} {cause : Prop}

theorem raisedFor_of_down (down : before = false) (raised : after = true ↔ cause) :
    RaisedFor before after cause :=
  ⟨by simp [down, raised], by simp [down]⟩

theorem raisedFor_of_same (never : ¬cause) : RaisedFor before before cause := by
  refine ⟨?_, id⟩
  cases before <;> simp [never]

/-- The cause leaves a flag no choice. -/
theorem RaisedFor.unique (raised : RaisedFor before after cause)
    (raised' : RaisedFor before after' cause) : after = after' := by
  cases before with
  | true => rw [raised.stays rfl, raised'.stays rfl]
  | false =>
    have same : after = true ↔ after' = true := by
      simpa using raised.rises.trans raised'.rises.symm
    exact Bool.eq_iff_iff.2 same

end Flags

/-- What an effect tells leaves open only the accumulator. -/
theorem Tells.unique (told : Tells m e next) (told' : Tells m e next') (acc : next.acc = next'.acc) :
    next = next' := by
  cases fetched : e.fetched with
  | none =>
    obtain ⟨-, same, halted⟩ := told.unfetched fetched
    obtain ⟨-, same', halted'⟩ := told'.unfetched fetched
    rw [same, same', halted.unique halted']
  | some a =>
    obtain ⟨-, -, word, -, address, goesTo⟩ := told.fetched a fetched
    obtain ⟨-, -, word', -, address', goesTo'⟩ := told'.fetched a fetched
    have ir : next.ir = next'.ir := Option.some.inj (word.symm.trans word')
    have ar : next.ar = next'.ar := by
      rw [← Int32.toInt_inj, address, address', ir]
    have pc : next.pc = next'.pc := by
      rw [← UInt8.toNat_inj, goesTo, goesTo']
    have pending : next.pending = next'.pending := told.pending.unique told'.pending
    have halted : next.halted = next'.halted := by
      have raised := told'.halted (by simp [fetched])
      rw [← pc] at raised
      exact (told.halted (by simp [fetched])).unique raised
    have memory : next.memory = next'.memory := by
      refine Vector.ext fun b inside => ?_
      by_cases stores : ∃ changed, e.written = some (b, changed)
      · obtain ⟨changed, written⟩ := stores
        obtain ⟨_, cell, -⟩ := told.stored b changed written
        obtain ⟨_, cell', -⟩ := told'.stored b changed written
        rw [cell, cell']
      · have unwritten : ∀ changed, e.written ≠ some (b, changed) :=
          fun changed written => stores ⟨changed, written⟩
        rw [told.kept b inside unwritten, told'.kept b inside unwritten]
    cases next
    cases next'
    simp_all

/-! ## Instructions -/

section Execute

variable (m : Machine) (policy : Policy) (i : Instruction)

theorem execute_written {changed : Bool}
    (written : (m.execute policy i).1.written = some (a, changed)) :
    ∃ inside : a < memorySize, (m.execute policy i).2.memory[a] = m.acc ∧
      (changed = true ↔ m.memory[a] ≠ m.acc) := by
  cases i with
  | sta b =>
    cases written
    have cell : m.memory.get b = m.memory[b.val] := rfl
    exact ⟨b.isLt, by simp [execute], by simp [cell]⟩
  | brz b | brp b =>
    simp only [execute] at written
    split at written <;> cases written
  | _ => cases written

/-- A cell that no store is reported of is not stored to. -/
theorem execute_kept (inside : a < memorySize)
    (unwritten : ∀ changed, (m.execute policy i).1.written ≠ some (a, changed)) :
    (m.execute policy i).2.memory[a] = m.memory[a] := by
  by_cases stores : ∃ b, i = .sta b
  · obtain ⟨b, rfl⟩ := stores
    have elsewhere : b.val ≠ a := by
      rintro rfl
      exact unwritten _ rfl
    simp [execute, elsewhere]
  · have same := execute_memory m policy i fun b store => stores ⟨b, store⟩
    simp only [same]

theorem execute_single :
    [(m.execute policy i).1.read.isSome, (m.execute policy i).1.written.isSome,
      (m.execute policy i).1.output.isSome, (m.execute policy i).1.branched.isSome].count true ≤
      1 := by
  cases i with
  | brz b | brp b =>
    simp only [execute]
    split <;> simp
  | _ => simp [execute]

theorem execute_acc_of_unread (unread : (m.execute policy i).1.read = none) :
    (m.execute policy i).2.acc = m.acc := by
  cases i with
  | add b | sub b | lda b => cases unread
  | brz b | brp b =>
    simp only [execute]
    split <;> rfl
  | _ => rfl

end Execute

/-! ## Steps -/

/-- From a cell of memory, the counter moves to a cell, or to the place just behind the last. -/
theorem toNat_pc_execute_fetch {word : Word} (policy : Policy) (i : Instruction)
    (inside : m.pc.toNat < 100) :
    ((m.fetch word).execute policy i).2.pc.toNat =
      match ((m.fetch word).execute policy i).1.branched with
      | some target => target
      | none => if i = .inp then m.pc.toNat else m.pc.toNat + 1 := by
  rw [execute_pc]
  cases branched : ((m.fetch word).execute policy i).1.branched with
  | some target =>
    have below : target < 100 := execute_branched _ policy i branched
    simp only [UInt8.toNat_ofNat']
    omega
  | none =>
    by_cases asks : i = .inp
    · simp [asks]
    · simpa [asks] using toNat_pc_fetch word inside

theorem Advance.fetchedFrom (advance : Advance flags m e next) (fetched : e.fetched = some a) :
    FetchedFrom m e next a := by
  cases advance with
  | idle | outside => cases fetched
  | @skipped word fetching found unknown =>
    obtain rfl : m.pc.toNat = a := Option.some.inj fetched
    obtain ⟨inside, -⟩ := word?_eq_some.1 found
    exact ⟨fetching, rfl, by rw [haltIfRanOff_ir]; exact found, by simp [unknown],
      by simpa using Word.toInt_remainder word, by simpa using toNat_pc_fetch word inside⟩
  | @executed word i fetching found known =>
    obtain rfl : m.pc.toNat = a := Option.some.inj fetched
    obtain ⟨inside, -⟩ := word?_eq_some.1 found
    refine ⟨fetching, rfl, by rw [haltIfRanOff_ir, execute_ir]; exact found, by simp [known],
      by simpa using Word.toInt_remainder word, ?_⟩
    rw [haltIfRanOff_pc, toNat_pc_execute_fetch flags.policy i inside]
    simp

/-- A machine that is in memory, or just behind it, is halted there only at the end. -/
theorem haltIfRanOff_halted_iff (le : m.pc.toNat ≤ 100) :
    m.haltIfRanOff.halted = true ↔ m.halted = true ∨ m.haltIfRanOff.pc.toNat = 100 := by
  rw [haltIfRanOff_halted, Bool.or_eq_true, decide_eq_true_eq, haltIfRanOff_pc]
  refine or_congr_right ?_
  constructor
  · intro beyond
    exact Nat.le_antisymm le beyond
  · intro atEnd
    exact Nat.le_of_eq atEnd.symm

/-- An instruction halts the machine by itself, or by moving it out of memory. -/
theorem Advance.halted_raisedFor (advance : Advance flags m e next) (fetched : e.fetched = some a) :
    RaisedFor m.halted next.halted (e.instruction = some .hlt ∨ next.pc.toNat = 100) := by
  have inside : a < 100 := fetched_lt_of_step (step_ok_iff.2 advance) fetched
  obtain ⟨ready, rfl, -⟩ := advance.fetched fetched
  have running := (status_fetching.1 ready).1
  cases advance with
  | idle | outside => cases fetched
  | @skipped word =>
    have le : (m.fetch word).pc.toNat ≤ 100 := by
      rw [toNat_pc_fetch word inside]
      exact inside
    refine raisedFor_of_down running ?_
    rw [haltIfRanOff_halted_iff le, fetch_halted]
    simp [running]
  | @executed word i =>
    have le : ((m.fetch word).execute flags.policy i).2.pc.toNat ≤ 100 := by
      rw [toNat_pc_execute_fetch flags.policy i inside]
      split
      next target branched => exact Nat.le_of_lt (execute_branched _ flags.policy i branched)
      next =>
        split
        next => exact Nat.le_of_lt inside
        next => exact inside
    refine raisedFor_of_down running ?_
    rw [haltIfRanOff_halted_iff le, execute_halted, fetch_halted]
    simp [running]

theorem Advance.unfetched (advance : Advance flags m e next) (unfetched : e.fetched = none) :
    e = {} ∧ next = { m with halted := next.halted } ∧
      RaisedFor m.halted next.halted (m.status = .fetching ∧ 100 ≤ m.pc.toNat) := by
  cases advance with
  | idle halted =>
    refine ⟨rfl, rfl, raisedFor_of_same ?_⟩
    simp [halted]
  | outside fetching none =>
    refine ⟨rfl, rfl, raisedFor_of_down (status_fetching.1 fetching).1 ?_⟩
    simpa [fetching] using word?_eq_none.1 none
  | skipped | executed => cases unfetched

theorem Advance.pending_raisedFor (advance : Advance flags m e next) :
    RaisedFor m.pending next.pending (e.instruction = some .inp) := by
  cases advance with
  | idle | outside => exact raisedFor_of_same (by simp)
  | skipped => rw [haltIfRanOff_pending, fetch_pending]; exact raisedFor_of_same (by simp)
  | executed fetching =>
    have ready := (status_fetching.1 fetching).2
    exact raisedFor_of_down ready (by simp [ready])

theorem Advance.stored {changed : Bool} (advance : Advance flags m e next)
    (written : e.written = some (a, changed)) : ∃ inside : a < memorySize,
      next.memory[a] = m.acc ∧ (changed = true ↔ m.memory[a] ≠ m.acc) := by
  cases advance with
  | idle | outside | skipped => cases written
  | @executed word i => simpa using execute_written (m.fetch word) flags.policy i written

theorem Advance.kept (advance : Advance flags m e next) (inside : a < memorySize)
    (unwritten : ∀ changed, e.written ≠ some (a, changed)) : next.memory[a] = m.memory[a] := by
  cases advance with
  | idle | outside => rfl
  | skipped => simp
  | @executed word i => simpa using execute_kept (m.fetch word) flags.policy i inside unwritten

theorem Advance.single (advance : Advance flags m e next) :
    [e.read.isSome, e.written.isSome, e.output.isSome, e.branched.isSome].count true ≤ 1 := by
  cases advance with
  | idle | outside | skipped => simp
  | @executed word i => exact execute_single (m.fetch word) flags.policy i

theorem Advance.acc_of_unread (advance : Advance flags m e next) (unread : e.read = none) :
    next.acc = m.acc := by
  cases advance with
  | idle | outside => rfl
  | skipped => simp
  | @executed word i => simpa using execute_acc_of_unread (m.fetch word) flags.policy i unread

theorem Advance.tells (advance : Advance flags m e next) : Tells m e next where
  stored _ _ := advance.stored
  kept _ inside := advance.kept inside
  single := advance.single
  acc differs := by
    rw [← Option.ne_none_iff_isSome]
    exact fun unread => differs (advance.acc_of_unread unread)
  output _ := advance.output_eq
  fetched _ := advance.fetchedFrom
  unfetched := advance.unfetched
  pending := advance.pending_raisedFor
  halted fetched := by
    obtain ⟨a, fetched⟩ := Option.isSome_iff_exists.1 fetched
    exact advance.halted_raisedFor fetched

/-- The accumulator stays as it is while no step reads a cell, and every output on the way is what it
holds. -/
theorem Trail.acc_of_unread {steps : List Footstep} (trail : Trail flags m steps last)
    (unread : ∀ f ∈ steps, f.effect.read = none) :
    last.acc = m.acc ∧ ∀ f ∈ steps, ∀ v, f.effect.output = some v → v = m.acc := by
  induction trail with
  | nil => exact ⟨rfl, by simp⟩
  | @cons m next last e steps taken rest ih =>
    rw [List.forall_mem_cons] at unread
    have advance := step_ok_iff.1 taken
    have same : next.acc = m.acc := advance.acc_of_unread unread.1
    obtain ⟨kept, outputs⟩ := ih unread.2
    refine ⟨kept.trans same, List.forall_mem_cons.2 ⟨fun v => advance.output_eq, ?_⟩⟩
    intro f later v put
    rw [outputs f later v put, same]

/-- The effect of a step tells what changed: of the cells, the one that was stored to; the
accumulator, only if a cell was read; and each other register, from the cell that was fetched from.
It leaves nothing open but what is in the accumulator. -/
theorem step_tells (taken : m.step flags = .ok (e, next)) :
    Tells m e next ∧ ∀ next', Tells m e next' → next'.acc = next.acc → next' = next := by
  have told := (step_ok_iff.1 taken).tells
  exact ⟨told, fun next' told' acc => told'.unique told acc⟩

/-- A machine whose instruction stores the accumulator over itself, and is in the last cell. -/
def overwriter : Machine where
  memory := Memory.ofWords (List.replicate 99 0 ++ [399])
  acc := 7
  pc := 99

theorem step_tells_overwriter : ∃ e next, overwriter.step { strict := true } = .ok (e, next) ∧
    e.written = some (99, true) ∧ Tells overwriter e next ∧ next.memory[99] = 7 ∧
      next.halted = true := by
  have advance : Advance { strict := true } overwriter _ _ :=
    .executed (by decide) (by decide +kernel) (by decide : Instruction.decode 399 = some (.sta 99))
  have taken := step_ok_iff.2 advance
  obtain ⟨told, -⟩ := step_tells taken
  obtain ⟨_, cell, -⟩ := told.stored 99 _ rfl
  refine ⟨_, _, taken, ?_, told, cell, ?_⟩
  · decide +kernel
  · decide +kernel

end LittleMan.Machine
