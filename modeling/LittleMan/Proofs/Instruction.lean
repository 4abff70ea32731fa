import LittleMan.Instruction

/-!
# Words and the instructions they mean

The two parts of a word as integers, and the words that mean an instruction: apart from the halt
instruction, which many words mean, an instruction is meant by its own word only
(`encode_of_decode`).
-/

namespace LittleMan

namespace Word

theorem toInt_operation (w : Word) : (operation w).toInt = w.toInt.tdiv 100 :=
  Int32.toInt_div_of_ne_right w 100 (by decide)

theorem toInt_remainder (w : Word) : (remainder w).toInt = w.toInt.tmod 100 :=
  Int32.toInt_mod w 100

end Word

namespace Instruction

variable {w : Word} {i : Instruction} {hundreds : Nat}

/-! ## Instructions by their mnemonic -/

theorem mnemonic_ne_dat (i : Instruction) : i.mnemonic ≠ .dat := by
  cases i <;> simp [mnemonic]

theorem exists_address (takes : i.mnemonic.takesAddress = true) : ∃ a, i.address? = some a := by
  cases i with
  | inp | out | hlt => cases takes
  | _ a => exact ⟨a, rfl⟩

/-! ## Words with and without hundreds -/

/-- The parts of a word that has hundreds. Its remainder is not negative, so it is an address. -/
theorem toInt_of_operation (operation : w.operation.toInt = hundreds) (positive : 0 < hundreds) :
    w.remainder.toInt = (addressOf w).val ∧ w.toInt = 100 * hundreds + (addressOf w).val := by
  rw [Word.toInt_operation] at operation
  have parts := Int.tmod_add_mul_tdiv w.toInt 100
  rw [operation] at parts
  have low : -100 < w.toInt.tmod 100 := Int.lt_tmod_of_pos _ (by decide)
  have high : w.toInt.tmod 100 < 100 := Int.tmod_lt_of_pos _ (by decide)
  have nonneg : 0 ≤ w.toInt.tmod 100 := Int.tmod_nonneg 100 (by omega)
  have address : (addressOf w).val = (w.toInt.tmod 100).toNat % 100 := by
    rw [← Word.toInt_remainder]; rfl
  rw [Word.toInt_remainder]
  omega

/-- The address of an instruction is what remains of its word without the hundreds. -/
theorem toInt_remainder_of_decode {a : Address} (known : decode w = some i)
    (addressed : i.address? = some a) : w.remainder.toInt = a.val := by
  unfold decode at known
  split at known
  case h_1 =>
    cases known
    cases addressed
  case h_2 operation | h_3 operation | h_4 operation | h_5 operation | h_6 operation |
      h_7 operation | h_8 operation =>
    cases known
    cases addressed
    exact (toInt_of_operation operation (by decide)).1
  case h_9 => split at known <;> cases known <;> cases addressed
  case h_10 => cases known

/-- A word with hundreds is the word of its hundreds and its address added to it. -/
theorem hundreds_add_address (operation : w.operation.toInt = hundreds) (positive : 0 < hundreds)
    (digit : hundreds < 10) :
    Int32.ofNat (100 * hundreds) + Int32.ofNat (addressOf w).val = w := by
  have value := (toInt_of_operation operation positive).2
  have address : (addressOf w).val < 100 := (addressOf w).isLt
  rw [← Int32.toInt_inj, Int32.toInt_add, Int32.toInt_ofNat_of_lt (by omega),
    Int32.toInt_ofNat_of_lt (by omega), Int.bmod_eq_of_le (by omega) (by omega)]
  omega

theorem operation_eq_zero_iff : w.operation.toInt = 0 ↔ -99 ≤ w.toInt ∧ w.toInt ≤ 99 := by
  rw [Word.toInt_operation]
  constructor
  · intro none
    have parts := Int.tmod_add_mul_tdiv w.toInt 100
    have low : -100 < w.toInt.tmod 100 := Int.lt_tmod_of_pos _ (by decide)
    have high : w.toInt.tmod 100 < 100 := Int.tmod_lt_of_pos _ (by decide)
    omega
  · rintro ⟨above, below⟩
    rw [← Int.natAbs_eq_zero, Int.natAbs_tdiv]
    exact Nat.div_eq_of_lt (by omega)

/-- The words of fewer than three digits halt, and no others. -/
theorem decode_eq_hlt_iff : decode w = some .hlt ↔ -99 ≤ w.toInt ∧ w.toInt ≤ 99 := by
  rw [← operation_eq_zero_iff]
  unfold decode
  split
  case h_9 nine =>
    split <;> simp [nine]
  all_goals simp_all

/-- Only its own word means an instruction that does not halt. -/
theorem encode_of_decode (known : decode w = some i) (runs : i ≠ .hlt) :
    i.encode = w := by
  unfold decode at known
  split at known
  case h_1 => cases known; exact absurd rfl runs
  case h_2 operation | h_3 operation | h_4 operation | h_5 operation | h_6 operation |
      h_7 operation | h_8 operation =>
    cases known
    exact hundreds_add_address operation (by decide) (by decide)
  case h_9 operation =>
    obtain ⟨address, value⟩ := @toInt_of_operation w 9 operation (by decide)
    rw [← address] at value
    split at known
    next one => cases known; rw [one] at value; exact Int32.toInt_inj.1 value.symm
    next two => cases known; rw [two] at value; exact Int32.toInt_inj.1 value.symm
    next => cases known
  case h_10 => cases known

end Instruction
end LittleMan
