import LittleMan.Text.Decimal

/-!
# Words

A word is what a memory cell or the accumulator holds. Words are meant to have three decimal digits,
but a cell can hold any integer of 32 bits.
-/

namespace LittleMan

/-- The value of a memory cell or a register. -/
abbrev Word := Int32

namespace Word

/-- The word of an integer, if 32 bits hold it. -/
def ofInt? (n : Int) : Option Word :=
  if -2147483648 ≤ n ∧ n ≤ 2147483647 then some (Int32.ofInt n) else none

/-- The word written in decimal, with an optional sign. -/
def ofText? (t : Text) : Option Word := (Decimal.integer? t).bind ofInt?

def text (w : Word) : Text := Decimal.signed w.toInt

/-- A word in decimal with at least two characters, as addresses are shown. -/
def twoDigits (w : Word) : Text := Decimal.padded 2 w.toInt

/-- A word in decimal with at least three characters, as cells are shown. -/
def threeDigits (w : Word) : Text := Decimal.padded 3 w.toInt

theorem ofInt?_toInt (w : Word) : ofInt? w.toInt = some w := by
  have low := w.le_toInt
  have high := w.toInt_lt
  rw [ofInt?, if_pos (by omega)]
  simp

/-- A shown word reads back as the word. -/
theorem ofText?_threeDigits (w : Word) : ofText? (threeDigits w) = some w := by
  simp [ofText?, threeDigits, Decimal.integer?_padded, ofInt?_toInt]

end Word

/-- An address in decimal with at least two digits. -/
def addressText (address : Nat) : Text := Decimal.padded 2 address

end LittleMan
