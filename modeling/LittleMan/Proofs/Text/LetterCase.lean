import LittleMan.Text.Uppercase
import Mathlib.Logic.Basic

/-!
# The case of letters

Texts that differ only in the case of ASCII letters have the same upper-case form
(`SameLetters.upper_eq`).
-/

namespace LittleMan.Text

variable {c d : Char} {t u : Text}

/-- The texts differ at most in the case of ASCII letters. -/
def SameLetters (t u : Text) : Prop := t.map Char.toUpper = u.map Char.toUpper

instance (t u : Text) : Decidable (SameLetters t u) := inferInstanceAs (Decidable (_ = _))

/-- The character is an ASCII letter. -/
def IsLetter (c : Char) : Prop :=
  (65 ≤ c.toNat ∧ c.toNat ≤ 90) ∨ (97 ≤ c.toNat ∧ c.toNat ≤ 122)

instance (c : Char) : Decidable (IsLetter c) := inferInstanceAs (Decidable (_ ∨ _))

theorem toNat_toUpper (lower : 97 ≤ c.toNat ∧ c.toNat ≤ 122) :
    c.toUpper.toNat = c.toNat - 32 := by
  have letter : 'a'.val ≤ c.val ∧ c.val ≤ 'z'.val := lower
  have moved : c.toUpper = ⟨c.val + ('A'.val - 'a'.val), _⟩ := dif_pos letter
  have shift : ('A'.val - 'a'.val).toNat = 2 ^ 32 - 32 := by decide
  rw [moved, Char.toNat, UInt32.toNat_add, shift, Char.toNat_val]
  omega

theorem isLetter_of_toUpper_ne (other : c.toUpper ≠ c) : IsLetter c ∧ IsLetter c.toUpper := by
  have lower : 97 ≤ c.toNat ∧ c.toNat ≤ 122 := by
    refine Decidable.byContradiction fun none => other ?_
    exact dif_neg none
  rw [IsLetter, IsLetter, toNat_toUpper lower]
  omega

/-- Only letters differ in case. -/
theorem eq_or_isLetter (same : c.toUpper = d.toUpper) : c = d ∨ IsLetter c ∧ IsLetter d := by
  by_cases upper : c.toUpper = c
  · by_cases upper' : d.toUpper = d
    · exact .inl (upper.symm.trans (same.trans upper'))
    · obtain ⟨letter', letter⟩ := isLetter_of_toUpper_ne upper'
      rw [← same, upper] at letter
      exact .inr ⟨letter, letter'⟩
  · obtain ⟨letter, letter'⟩ := isLetter_of_toUpper_ne upper
    by_cases upper' : d.toUpper = d
    · rw [same, upper'] at letter'
      exact .inr ⟨letter, letter'⟩
    · exact .inr ⟨letter, (isLetter_of_toUpper_ne upper').1⟩

theorem upperChar_eq (same : c.toUpper = d.toUpper) : upperChar c = upperChar d := by
  rcases eq_or_isLetter same with rfl | ⟨letter, letter'⟩
  · rfl
  · rw [IsLetter] at letter letter'
    rw [upperChar_ascii c (by omega), upperChar_ascii d (by omega), same]

theorem SameLetters.upper_eq (same : SameLetters t u) : upper t = upper u := by
  induction t generalizing u with
  | nil =>
    obtain rfl : u = [] := List.map_eq_nil_iff.1 same.symm
    rfl
  | cons c t ih =>
    obtain ⟨d, u, rfl, first, rest⟩ := List.map_eq_cons_iff.1 same.symm
    rw [upper, upper, List.flatMap_cons, List.flatMap_cons, upperChar_eq first.symm]
    exact congrArg _ (ih rest.symm)

end LittleMan.Text
