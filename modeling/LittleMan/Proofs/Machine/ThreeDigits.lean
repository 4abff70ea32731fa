import LittleMan.Proofs.Assembly.Meaning
import LittleMan.Proofs.Machine.Ledger
import LittleMan.Proofs.Machine.Words

/-!
# Three digits and a sign

A policy that fits results into three digits keeps all words of the machine there, though loads and
stores copy words unchecked: what they copy was fitted before, or was in memory from the start. So a
machine whose memory starts with words of three digits never holds or puts out a longer one, and
strict assembly makes such a memory of every program that it accepts (`keeps_three_digits`).
-/

namespace LittleMan

/-- The word has at most three digits, and may have a sign. -/
def Word.ThreeDigits (w : Word) : Prop := -999 ≤ w.toInt ∧ w.toInt ≤ 999

theorem Word.threeDigits_zero : ThreeDigits 0 := ⟨by decide, by decide⟩

def Memory.ThreeDigits (memory : Memory) : Prop :=
  ∀ (a : Nat) (inside : a < memorySize), Word.ThreeDigits memory[a]

/-- The policy fits every result into three digits. -/
def Policy.Bounded (p : Policy) : Prop := p = .wrap ∨ p = .clamp

theorem Policy.Bounded.threeDigits_fit {p : Policy} (bounded : p.Bounded) (n : Int) :
    Word.ThreeDigits (p.fit n) := by
  rcases bounded with rfl | rfl
  · have low : 0 ≤ n % 1000 := Int.emod_nonneg n (by decide)
    have high : n % 1000 < 1000 := Int.emod_lt_of_pos n (by decide)
    rw [Word.ThreeDigits, fit, Int32.toInt_ofInt_of_le (by omega) (by omega)]
    omega
  · have low : -999 ≤ max (-999) (min n 999) := by omega
    have high : max (-999) (min n 999) ≤ 999 := by omega
    rw [Word.ThreeDigits, fit, Int32.toInt_ofInt_of_le (by omega) (by omega)]
    exact ⟨low, high⟩

/-! ## Words of a strictly assembled program -/

namespace Assembly

variable {labels : Labels} {s : Statement} {m : Mnemonic} {value word : Word}

theorem base_range (m : Mnemonic) (takes : m.takesAddress = true) :
    0 ≤ m.base.toInt ∧ m.base.toInt ≤ 800 := by
  cases m with
  | inp | out | hlt | dat => cases takes
  | _ => exact ⟨by decide, by decide⟩

/-- An address after the hundreds of its instruction, and data in range, have three digits. -/
theorem threeDigits_base_add (counts : m.takesAddress = true ∨ m = .dat)
    (fits : allowed m value = true) : Word.ThreeDigits (m.base + value) := by
  rcases counts with takes | rfl
  · have address : 0 ≤ value.toInt ∧ value.toInt < 100 := by simpa [allowed, takes] using fits
    have hundreds := base_range m takes
    rw [Word.ThreeDigits, Int32.toInt_add, Int.bmod_eq_of_le (by omega) (by omega)]
    omega
  · have data : -999 ≤ value.toInt ∧ value.toInt ≤ 999 := by
      simpa [allowed, Mnemonic.takesAddress] using fits
    have none : Mnemonic.dat.base + value = value := Int32.zero_add value
    rwa [none]

theorem threeDigits_of_encode (encoded : (encode true labels s).result = .ok word) :
    Word.ThreeDigits word := by
  obtain ⟨m, -, encoded⟩ := encode_ok_iff.1 encoded
  split at encoded
  next plain =>
    subst encoded
    rcases plain with rfl | rfl | rfl <;> exact ⟨by decide, by decide⟩
  next others =>
    have counts : m.takesAddress = true ∨ m = .dat := by
      cases m <;> simp_all [Mnemonic.takesAddress]
    obtain ⟨value, -, fits, rfl⟩ := encodeWithOperand_ok_iff.1 encoded
    exact threeDigits_base_add counts (fits rfl)

/-- Strict assembly makes words of three digits only. -/
theorem threeDigits_of_assemble {symbols : Bool} {source : Text} {object : ObjectFile}
    (accepted : (assemble { strict := true, symbols } source).result = .ok object) :
    object.words.ThreeDigits := by
  intro a inside
  obtain ⟨length, unwritten, -⟩ := object_of_assemble accepted
  by_cases written : a < (Statement.ofSource source).length
  · exact threeDigits_of_encode
      (encode_of_assemble accepted (List.getElem?_eq_getElem written) inside)
  · rw [unwritten a inside (by omega)]
    exact Word.threeDigits_zero

end Assembly

/-! ## What a machine keeps -/

namespace Machine

/-- The accumulator and all cells have three digits. -/
structure ThreeDigits (m : Machine) : Prop where
  acc : Word.ThreeDigits m.acc
  memory : m.memory.ThreeDigits

variable {m next : Machine} {flags : Flags} {e : Effect} {policy : Policy} {i : Instruction}

theorem threeDigits_iff : m.ThreeDigits ↔ m.AllWords Word.ThreeDigits :=
  ⟨fun digits => ⟨digits.acc, digits.memory⟩, fun words => ⟨words.acc, words.memory⟩⟩

theorem ThreeDigits.afterCall (digits : m.ThreeDigits) {call : Call}
    (bounded : call.flags.policy.Bounded) : (m.afterCall call).ThreeDigits :=
  threeDigits_iff.2 ((threeDigits_iff.1 digits).afterCall bounded.threeDigits_fit)

theorem ThreeDigits.effectOf (digits : m.ThreeDigits) {call : Call} {v : Word}
    (put : (m.effectOf call).output = some v) : Word.ThreeDigits v := by
  cases call with
  | step flags =>
    cases taken : m.step flags with
    | ok result =>
      rw [effectOf_step taken] at put
      rw [(step_ok_iff.1 taken).output_eq put]
      exact digits.acc
    | error fault => simp [Machine.effectOf, taken] at put
  | resume flags input => cases put

theorem threeDigits_ofMemory {memory : Memory} (digits : memory.ThreeDigits) :
    (ofMemory memory).ThreeDigits :=
  ⟨Word.threeDigits_zero, digits⟩

end Machine

namespace Ledger

/-- The machine has three digits, and so has everything that it put out. -/
structure ThreeDigits (l : Ledger) : Prop where
  machine : l.machine.ThreeDigits
  outputs : ∀ v ∈ l.outputs, Word.ThreeDigits v

variable {l : Ledger} {call : Call} {calls : List Call}

theorem ThreeDigits.enter (digits : l.ThreeDigits) (bounded : call.flags.policy.Bounded) :
    (l.enter call).ThreeDigits := by
  refine ⟨digits.machine.afterCall bounded, fun v put => ?_⟩
  rcases List.mem_append.1 put with earlier | now
  · exact digits.outputs v earlier
  · exact digits.machine.effectOf (by simpa using now)

theorem ThreeDigits.enterAll (digits : l.ThreeDigits)
    (bounded : ∀ call ∈ calls, call.flags.policy.Bounded) : (l.enterAll calls).ThreeDigits := by
  induction calls generalizing l with
  | nil => exact digits
  | cons call calls ih =>
    rw [List.forall_mem_cons] at bounded
    exact ih (digits.enter bounded.1) bounded.2

end Ledger

/-- Strict assembly makes memories of three-digit words. From every such memory, calls under
policies that fit results into three digits, one policy or the other for each call, lead to machines
whose accumulator and cells have three digits, and so have all values that are put out on the way. -/
theorem keeps_three_digits :
    (∀ symbols source object,
      (Assembly.assemble { strict := true, symbols } source).result = .ok object →
        object.words.ThreeDigits) ∧
    ∀ (memory : Memory), memory.ThreeDigits →
      ∀ calls : List Call, (∀ call ∈ calls, call.flags.policy.Bounded) →
        ((Machine.ofMemory memory).afterCalls calls).ThreeDigits ∧
          ∀ v ∈ ((Ledger.ofMemory memory).enterAll calls).outputs, Word.ThreeDigits v := by
  refine ⟨fun symbols source object => Assembly.threeDigits_of_assemble, ?_⟩
  intro memory digits calls bounded
  have fresh : (Ledger.ofMemory memory).ThreeDigits :=
    ⟨Machine.threeDigits_ofMemory digits, by simp [Ledger.ofMemory]⟩
  have kept := fresh.enterAll bounded
  refine ⟨?_, kept.outputs⟩
  have machine := kept.machine
  rwa [Ledger.enterAll_machine] at machine

/-- A program that adds to an input more than three digits hold. -/
def adderSource : Text := "INP
ADD BIG
OUT
STA BIG
ADD BIG
OUT
HLT
BIG DAT 999".toList

/-- The calls that run the program, which change the policy before the second addition. -/
def adderCalls : List Call :=
  let clamped : Flags := { policy := .clamp }
  let wrapped : Flags := { policy := .wrap }
  [.step clamped, .resume clamped "700".toList, .step clamped, .step clamped, .step clamped,
    .step wrapped, .step wrapped]

theorem keeps_three_digits_adder :
    ∃ object, (Assembly.assemble { strict := true } adderSource).result = .ok object ∧
      object.words.ThreeDigits ∧ (∀ call ∈ adderCalls, call.flags.policy.Bounded) ∧
      ((Machine.ofMemory object.words).afterCalls adderCalls).ThreeDigits ∧
      ∀ v ∈ ((Ledger.ofMemory object.words).enterAll adderCalls).outputs, Word.ThreeDigits v := by
  have ok : (Assembly.assemble { strict := true } adderSource).result.isOk = true := by
    decide +kernel
  obtain ⟨object, accepted⟩ : ∃ object,
      (Assembly.assemble { strict := true } adderSource).result = .ok object := by
    cases result : (Assembly.assemble { strict := true } adderSource).result with
    | ok object => exact ⟨object, rfl⟩
    | error => rw [result] at ok; cases ok
  have digits := keeps_three_digits.1 false adderSource object accepted
  have bounded : ∀ call ∈ adderCalls, call.flags.policy.Bounded := by
    simp [adderCalls, Call.flags, Policy.Bounded]
  exact ⟨object, accepted, digits, bounded, keeps_three_digits.2 object.words digits _ bounded⟩

end LittleMan
