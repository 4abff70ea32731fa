/-!
# Search by halves

Where a number stands in a list that increases. Main statement: a number is found exactly where it
stands (`place?_eq_some_iff`).
-/

namespace LittleMan.Assembly

/-- Where a number could stand among the `size` numbers from the place `base` on. The half that cannot
hold it is left out until one place remains. -/
def narrow (numbers : List Nat) (sought base size : Nat) : Nat :=
  if 1 < size then
    let half := size / 2
    let middle := base + half
    narrow numbers sought (if sought < numbers.getD middle 0 then base else middle) (size - half)
  else base
termination_by size

/-- Where a number stands in a list that increases, if it does. -/
def place? (numbers : List Nat) (sought : Nat) : Option Nat :=
  let place := narrow numbers sought 0 numbers.length
  if numbers[place]? = some sought then some place else none

variable {numbers : List Nat} {sought base size k : Nat}

/-- A number that is among those that are searched is where the search ends. -/
theorem narrow_eq (increasing : numbers.Pairwise (· < ·)) (at_k : numbers[k]? = some sought)
    (above : base ≤ k) (below : k < base + size) (inside : base + size ≤ numbers.length) :
    narrow numbers sought base size = k := by
  fun_induction narrow numbers sought base size with
  | case1 base size many half middle ih =>
    have between : base < middle ∧ middle < base + size := by
      have most : half < size := Nat.div_lt_self (by omega) (by decide)
      have some : 0 < half := Nat.div_pos (by omega) (by decide)
      omega
    have within : middle < numbers.length := by omega
    have at_middle : numbers.getD middle 0 = numbers[middle] := by simp [within]
    obtain ⟨held, stands⟩ := List.getElem?_eq_some_iff.1 at_k
    rw [List.pairwise_iff_getElem] at increasing
    rw [at_middle] at ih ⊢
    by_cases less : sought < numbers[middle]
    · -- What stands at the middle or after it is larger than the number.
      have before : k < middle := by
        refine Nat.lt_of_not_le fun after => ?_
        rcases Nat.lt_or_eq_of_le after with later | rfl
        · have larger := increasing middle k within held later
          omega
        · omega
      rw [dif_pos less] at ih
      rw [if_pos less]
      exact ih above (by omega) (by omega)
    · -- What stands before the middle is smaller than the number.
      have after : middle ≤ k := by
        refine Nat.le_of_not_lt fun before => ?_
        have smaller := increasing k middle held within before
        omega
      rw [dif_neg less] at ih
      rw [if_neg less]
      exact ih after (by omega) (by omega)
  | case2 base size few =>
    omega

theorem place?_eq_some_iff (increasing : numbers.Pairwise (· < ·)) :
    place? numbers sought = some k ↔ numbers[k]? = some sought := by
  rw [place?]
  constructor
  · intro found
    split at found
    next stands =>
      cases found
      exact stands
    next => cases found
  · intro at_k
    have inside := (List.getElem?_eq_some_iff.1 at_k).1
    have ends : narrow numbers sought 0 numbers.length = k :=
      narrow_eq increasing at_k (Nat.zero_le k) (by omega) (by omega)
    simp [ends, at_k]

end LittleMan.Assembly
