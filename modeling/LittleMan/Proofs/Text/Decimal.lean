import LittleMan.Word

/-!
# The texts that are integers

An integer is written with an optional sign and then with ASCII digits, one at least. These texts are
read as the integers that they write, and no others are read (`integer?_eq_some_iff`). A text is a
word if the integer that it writes has 32 bits (`ofText?_eq_none_iff`).
-/

namespace LittleMan

namespace Decimal

/-- The text is made of ASCII digits, one at least. -/
def Digits (t : Text) : Prop := t ≠ [] ∧ ∀ c ∈ t, '0' ≤ c ∧ c ≤ '9'

/-- The number whose decimal digits these are, the first of the highest weight. -/
def value (t : Text) : Nat := t.foldl (fun n c => 10 * n + (c.toNat - '0'.toNat)) 0

/-- The text writes the integer: digits after an optional sign. -/
inductive Writes : Text → Int → Prop
  | unsigned {t : Text} (digits : Digits t) : Writes t (value t)
  | plus {t : Text} (digits : Digits t) : Writes ('+' :: t) (value t)
  | minus {t : Text} (digits : Digits t) : Writes ('-' :: t) (-value t)

variable {t : Text} {n : Int} {k : Nat}

theorem digits_iff : Digits t ↔ t ≠ [] ∧ t.all Char.isDigit = true := by
  simp [Digits, Char.isDigit, Char.le_def]

theorem natural?_eq_some_iff : natural? t = some k ↔ Digits t ∧ k = value t := by
  rw [natural?, digits_iff]
  split
  next digits => simp [digits, value, Nat.ofDigitChars, eq_comm]
  next other => simp only [other, reduceCtorEq, false_and]

/-- A sign is no digit. -/
theorem Digits.head_ne {c : Char} {rest : Text} (digits : Digits (c :: rest)) :
    c ≠ '-' ∧ c ≠ '+' := by
  obtain ⟨low, -⟩ := digits.2 c List.mem_cons_self
  constructor
  · rintro rfl
    exact absurd low (by decide)
  · rintro rfl
    exact absurd low (by decide)

theorem integer?_of_digits (digits : Digits t) : integer? t = some (value t : Int) := by
  have read : natural? t = some (value t) := natural?_eq_some_iff.2 ⟨digits, rfl⟩
  unfold integer?
  split
  next rest => exact absurd rfl digits.head_ne.1
  next rest => exact absurd rfl digits.head_ne.2
  next => rw [read]; rfl

/-- Reading accepts the texts that write an integer, and no others. -/
theorem integer?_eq_some_iff : integer? t = some n ↔ Writes t n := by
  constructor
  · intro read
    unfold integer? at read
    split at read
    all_goals
      obtain ⟨k, natural, rfl⟩ := Option.map_eq_some_iff.1 read
      obtain ⟨digits, rfl⟩ := natural?_eq_some_iff.1 natural
    next => exact .minus digits
    next => exact .plus digits
    next => exact .unsigned digits
  · rintro (digits | digits | digits)
    · exact integer?_of_digits digits
    all_goals
      have read := natural?_eq_some_iff.2 ⟨digits, rfl⟩
      simp [integer?, read]

end Decimal

namespace Word

open Decimal

variable {t : Text}

theorem ofText?_eq_some_iff {w : Word} : ofText? t = some w ↔ Writes t w.toInt := by
  rw [← integer?_eq_some_iff, ofText?, Option.bind_eq_some_iff]
  constructor
  · rintro ⟨n, read, fits⟩
    rw [ofInt?] at fits
    split at fits
    next range =>
      cases fits
      rwa [Int32.toInt_ofInt_of_le range.1 (by omega)]
    next => cases fits
  · intro read
    exact ⟨w.toInt, read, ofInt?_toInt w⟩

/-- A text is no word if it writes no integer, or one that 32 bits do not hold. -/
theorem ofText?_eq_none_iff :
    ofText? t = none ↔ ¬∃ n, Writes t n ∧ -2147483648 ≤ n ∧ n ≤ 2147483647 := by
  rw [Option.eq_none_iff_forall_ne_some, not_exists]
  constructor
  · rintro unread n ⟨written, low, high⟩
    refine unread (Int32.ofInt n) (ofText?_eq_some_iff.2 ?_)
    rwa [Int32.toInt_ofInt_of_le low (by omega)]
  · intro unwritten w read
    have low := w.le_toInt
    have high := w.toInt_lt
    exact unwritten w.toInt ⟨ofText?_eq_some_iff.1 read, by omega, by omega⟩

end Word

end LittleMan
