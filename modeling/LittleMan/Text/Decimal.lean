import LittleMan.Text.Basic

/-!
# Decimal numbers

Integers are written with the fewest digits and a minus sign, or with zeros between the sign and the
digits up to a given width. They are read from an optional sign and at least one digit. Main
statement: reading gives back every integer that was written, padded or not (`integer?_padded`).
-/

namespace LittleMan.Decimal

def digits (n : Nat) : Text := Nat.toDigits 10 n

/-- The number written in ASCII digits, of which there must be one at least. -/
def natural? (t : Text) : Option Nat :=
  if t ≠ [] ∧ t.all Char.isDigit then some (Nat.ofDigitChars 10 t 0) else none

/-- A natural number after an optional plus sign. -/
def unsigned? : Text → Option Nat
  | '+' :: t => natural? t
  | t => natural? t

/-- An integer: a natural number after an optional sign. -/
def integer? : Text → Option Int
  | '-' :: t => (natural? t).map fun (n : Nat) => -(n : Int)
  | '+' :: t => (natural? t).map Int.ofNat
  | t => (natural? t).map Int.ofNat

/-- The sign that is written before the digits of an integer. -/
def sign (n : Int) : Text := if n < 0 then ['-'] else []

def signed (n : Int) : Text := sign n ++ digits n.natAbs

/-- An integer in decimal that takes at least `width` characters: zeros fill the space between the
sign and the digits. -/
def padded (width : Nat) (n : Int) : Text :=
  let ds := digits n.natAbs
  sign n ++ List.replicate (width - ((sign n).length + ds.length)) '0' ++ ds

theorem digits_ne_nil (n : Nat) : digits n ≠ [] := by
  rw [digits, Nat.toDigits_eq_if (by decide)]
  split <;> simp

theorem isDigit_of_mem_digits {n : Nat} {c : Char} (h : c ∈ digits n) : c.isDigit = true :=
  Nat.isDigit_of_mem_toDigits (by decide) (by decide) h

/-- Leading zeros change nothing. -/
theorem ofDigitChars_replicate_zero (k : Nat) (t : Text) :
    Nat.ofDigitChars 10 (List.replicate k '0' ++ t) 0 = Nat.ofDigitChars 10 t 0 := by
  induction k with
  | zero => simp
  | succ k ih => simpa [List.replicate_succ, Nat.ofDigitChars] using ih

theorem natural?_zeros_digits (k n : Nat) :
    natural? (List.replicate k '0' ++ digits n) = some n := by
  have all : (List.replicate k '0' ++ digits n).all Char.isDigit = true := by
    simp only [List.all_append, Bool.and_eq_true, List.all_eq_true]
    exact ⟨fun c h => by rw [List.eq_of_mem_replicate h]; rfl, fun c h => isDigit_of_mem_digits h⟩
  rw [natural?, if_pos ⟨by simp [digits_ne_nil], all⟩, ofDigitChars_replicate_zero]
  exact congrArg some (Nat.ofDigitChars_toDigits (by decide) (by decide))

theorem integer?_minus (t : Text) :
    integer? ('-' :: t) = (natural? t).map fun (n : Nat) => -(n : Int) := by
  simp [integer?]

theorem integer?_of_isDigit {c : Char} {t : Text} (h : c.isDigit = true) :
    integer? (c :: t) = (natural? (c :: t)).map Int.ofNat := by
  unfold integer?
  split
  · rename_i heq; cases heq; exact absurd h (by decide)
  · rename_i heq; cases heq; exact absurd h (by decide)
  · rfl

/-- Reading a padded integer gives the integer. -/
theorem integer?_padded (width : Nat) (n : Int) : integer? (padded width n) = some n := by
  by_cases neg : n < 0
  · have opens : padded width n = '-' :: (List.replicate
        (width - ((sign n).length + (digits n.natAbs).length)) '0' ++ digits n.natAbs) := by
      simp [padded, sign, neg]
    rw [opens, integer?_minus, natural?_zeros_digits, Option.map_some, Option.some.injEq]
    omega
  · have opens : padded width n = List.replicate
        (width - ((sign n).length + (digits n.natAbs).length)) '0' ++ digits n.natAbs := by
      rw [padded]
      simp only [sign, if_neg neg, List.nil_append]
    rw [opens]
    generalize width - ((sign n).length + (digits n.natAbs).length) = zeros
    have value := natural?_zeros_digits zeros n.natAbs
    have isDigit : ∀ c ∈ List.replicate zeros '0' ++ digits n.natAbs, c.isDigit = true := by
      intro c member
      rcases List.mem_append.1 member with h | h
      · rw [List.eq_of_mem_replicate h]; rfl
      · exact isDigit_of_mem_digits h
    generalize List.replicate zeros '0' ++ digits n.natAbs = written at value isDigit
    cases written with
    | nil => simp [natural?] at value
    | cons c t =>
      rw [integer?_of_isDigit (isDigit c (by simp)), value, Option.map_some, Option.some.injEq]
      change (n.natAbs : Int) = n
      omega

end LittleMan.Decimal
