import LittleMan.Proofs.Machine.Calls

/-!
# The ledger of a machine

A machine that is called by itself, one call at a time, with what can be read off from its calls:
what was put out, how many words were fetched, and which was fetched or refused last.
-/

namespace LittleMan

namespace Machine

/-- What a call does to a machine. A call that is refused, and an input, have no effect. -/
def effectOf (m : Machine) : Call → Effect
  | .step flags =>
    match m.step flags with
    | .ok (e, _) => e
    | .error _ => {}
  | .resume _ _ => {}

/-- The address of the word that a call fetches, or refuses because it means no instruction. -/
def addressed (m : Machine) : Call → Option Nat
  | .step flags =>
    match m.step flags with
    | .ok (e, _) => e.fetched
    | .error (.illegalWord _) => some m.pc.toNat
    | .error _ => none
  | .resume _ _ => none

variable {m next : Machine} {flags : Flags} {e : Effect} {fault : Fault} {input : Text}

section Step

theorem afterCall_step (taken : m.step flags = .ok (e, next)) :
    m.afterCall (.step flags) = next := by
  simp [afterCall, taken]

theorem effectOf_step (taken : m.step flags = .ok (e, next)) :
    m.effectOf (.step flags) = e := by
  simp [effectOf, taken]

theorem addressed_step (taken : m.step flags = .ok (e, next)) :
    m.addressed (.step flags) = e.fetched := by
  simp [addressed, taken]

end Step

/-- A machine that awaits input after a call has just fetched the instruction that asked for it, or
it awaited the input before, when nothing was fetched. -/
theorem pending_afterCall (call : Call) (pending : (m.afterCall call).pending = true) :
    m.addressed call = some (m.afterCall call).pc.toNat ∨
      m.addressed call = none ∧ m.afterCall call = m := by
  cases call with
  | step flags =>
    rcases taken : m.step flags with fault | ⟨e, next⟩
    · rcases step_error_iff.1 taken with ⟨-, rfl⟩ | ⟨-, -, word, -, -, rfl⟩
      · exact .inr (by simp [addressed, afterCall, taken])
      · exact .inl (by simp [addressed, afterCall, taken])
    · rw [afterCall_step taken] at pending ⊢
      rw [addressed_step taken]
      cases step_ok_iff.1 taken with
      | idle => exact .inr ⟨rfl, rfl⟩
      | outside fetching =>
        rw [show m.pending = false from (status_fetching.1 fetching).2] at pending
        cases pending
      | skipped fetching =>
        simp [(status_fetching.1 fetching).2] at pending
      | @executed word i fetching =>
        have asks : i = .inp := by simpa [(status_fetching.1 fetching).2] using pending
        subst asks
        exact .inl (by simp [execute])
  | resume flags input =>
    rcases supplied : m.resume flags input with fault | next
    · exact .inr (by simp [addressed, afterCall, supplied])
    · obtain ⟨-, value, -, rfl⟩ := resume_ok_iff.1 supplied
      simp [afterCall, supplied, Machine.supplied] at pending

end Machine

/-- A machine, and what its calls did. -/
structure Ledger where
  machine : Machine
  /-- The values that were put out, in order. -/
  outputs : List Word := []
  /-- How many words were fetched. -/
  fetches : Nat := 0
  /-- The address of the word that was fetched or refused last. -/
  last : Option Nat := none
  /-- A machine that awaits input stands at that address. -/
  standing : machine.pending = true → last = some machine.pc.toNat

namespace Ledger

/-- The ledger of a machine that was not called yet. -/
def ofMemory (memory : Memory) : Ledger where
  machine := .ofMemory memory
  standing pending := by cases pending

/-- One more call. -/
def enter (l : Ledger) (call : Call) : Ledger where
  machine := l.machine.afterCall call
  outputs := l.outputs ++ (l.machine.effectOf call).output.toList
  fetches := l.fetches + if (l.machine.effectOf call).fetched.isSome then 1 else 0
  last := l.machine.addressed call <|> l.last
  standing pending := by
    rcases Machine.pending_afterCall call pending with here | ⟨nothing, same⟩
    · simp [here]
    · rw [same] at pending ⊢
      simpa [nothing] using l.standing pending

def enterAll (l : Ledger) (calls : List Call) : Ledger := calls.foldl enter l

@[simp] theorem enterAll_nil (l : Ledger) : l.enterAll [] = l := rfl

@[simp] theorem enterAll_cons (l : Ledger) (call : Call) (calls : List Call) :
    l.enterAll (call :: calls) = (l.enter call).enterAll calls :=
  rfl

@[simp] theorem enterAll_append (l : Ledger) (calls more : List Call) :
    l.enterAll (calls ++ more) = (l.enterAll calls).enterAll more :=
  List.foldl_append

/-- The machine of a ledger is the one that the calls lead to. -/
theorem enterAll_machine (l : Ledger) (calls : List Call) :
    (l.enterAll calls).machine = l.machine.afterCalls calls := by
  induction calls generalizing l with
  | nil => rfl
  | cons call calls ih => exact ih (l.enter call)

end Ledger
end LittleMan
