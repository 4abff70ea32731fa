import LittleMan.Activity
import Mathlib.Algebra.GroupWithZero.Nat
import Mathlib.Algebra.Order.BigOperators.Group.List
import Mathlib.Algebra.Order.Group.Nat

/-!
# The activity of steps

What is recorded of steps, one after another, is for each cell how many of them fetched its word,
used it as a number, stored to it and branched to it, and whether a store changed it (`Shows.record`).
The cells that something happened to are those that an effect names (`Shows.touched`). Up to the
largest count, the executed counts sum to how often a word was fetched (`Shows.executions`).
-/

namespace LittleMan

/-- The effect is on this cell, or it is the cell that was fetched from. -/
def Effect.names (e : Effect) (a : Nat) : Bool :=
  e.fetched == some a || e.read == some a || e.written.any (·.1 == a) || e.branched == some a

namespace CellActivity

/-- What happens to a cell in steps with these effects. -/
def ofEffects (address : Nat) (effects : List Effect) : CellActivity where
  executed := min (effects.countP (·.fetched == some address)) countLimit
  loaded := min (effects.countP (·.read == some address)) countLimit
  stored := min (effects.countP (·.written.any (·.1 == address))) countLimit
  changed := effects.any (·.written == some (address, true))
  entered := min (effects.countP (·.branched == some address)) countLimit

/-- One more step that is counted is one more in the count, until it stops. -/
theorem min_countP_append (p : Effect → Bool) (effects : List Effect) (e : Effect) :
    min ((effects ++ [e]).countP p) countLimit =
      if p e then countUp (min (effects.countP p) countLimit)
      else min (effects.countP p) countLimit := by
  cases counted : p e with
  | false => simp [counted]
  | true =>
    simp only [List.countP_append, List.countP_singleton, counted, if_true, countUp]
    omega

end CellActivity

namespace Activity

open CellActivity (ofEffects countLimit countUp)

/-- The activity is that of steps with these effects. -/
def Shows (activity : Activity) (effects : List Effect) : Prop :=
  ∀ a (inside : a < memorySize), activity[a] = ofEffects a effects

/-- All the executed counts together. -/
def executions (activity : Activity) : Nat := (activity.toList.map (·.executed)).sum

variable {activity : Activity} {effects : List Effect} {e : Effect} {a : Nat}

theorem getElem_update {f : CellActivity → CellActivity} {address : Option Nat}
    (inside : a < memorySize) :
    (activity.update address f)[a] = if address = some a then f activity[a] else activity[a] := by
  cases address with
  | none => simp [update]
  | some b =>
    by_cases here : b = a
    · subst here
      simp [update, inside]
    · by_cases within : b < memorySize <;> simp [update, within, here]

theorem shows_nil : empty.Shows [] := by
  intro a inside
  simp [empty, ofEffects]

/-- What is recorded of one more step is shown with those before it. -/
theorem Shows.record (shows : activity.Shows effects) (e : Effect) :
    (activity.record e).Shows (effects ++ [e]) := by
  intro a inside
  simp only [Activity.record, getElem_update inside, shows a inside, ofEffects,
    CellActivity.min_countP_append, List.any_append, List.any_cons, List.any_nil, Bool.or_false]
  have stored : e.written.map Prod.fst = some a ↔ e.written.any (·.1 == a) = true := by
    cases e.written <;> simp
  have changed : (e.written == some (a, true)) =
      (e.written.any (·.1 == a) && e.written.any Prod.snd) := by
    rcases e.written with _ | ⟨b, flag⟩
    · rfl
    · rw [Bool.eq_iff_iff]
      simp
  by_cases here : e.written.any (·.1 == a) = true <;> by_cases fetched : e.fetched = some a <;>
    by_cases read : e.read = some a <;> by_cases branched : e.branched = some a <;>
    simp [stored, changed, here, fetched, read, branched]

theorem cell_eq_getElem (inside : a < memorySize) : activity.cell a = activity[a] := by
  have size : a < activity.toArray.size := by simpa using inside
  exact dif_pos size

/-! ## The cells that something happened to -/

theorem touched_ofEffects (a : Nat) (effects : List Effect) :
    (ofEffects a effects).touched = effects.any (·.names a) := by
  have counted (p : Effect → Bool) :
      decide (0 < min (effects.countP p) countLimit) = effects.any p := by
    rw [Bool.eq_iff_iff]
    simp [countLimit, List.countP_pos_iff]
  simp only [CellActivity.touched, gt_iff_lt, ofEffects, counted, Effect.names]
  rw [Bool.eq_iff_iff]
  simp only [Bool.or_eq_true, List.any_eq_true, and_or_left, exists_or]

theorem zipIdx_toList (activity : Activity) :
    activity.toList.zipIdx = (List.range memorySize).map fun a => (activity.cell a, a) := by
  refine List.ext_getElem (by simp) fun a _ within => ?_
  have within : a < memorySize := by simpa using within
  simp [cell_eq_getElem within]

/-- The cells that something happened to are those that an effect names, in address order. -/
theorem Shows.touched (shows : activity.Shows effects) :
    activity.touched = ((List.range memorySize).filter fun a => effects.any (·.names a)).map
      fun a => (a, activity.cell a) := by
  rw [Activity.touched, zipIdx_toList, List.filter_map, List.map_map]
  have same : ∀ a ∈ List.range memorySize,
      ((fun c : CellActivity × Nat => c.1.touched) ∘ fun a => (activity.cell a, a)) a =
        effects.any (·.names a) := by
    intro a member
    have inside := List.mem_range.1 member
    simp only [Function.comp_apply, cell_eq_getElem inside, shows a inside, touched_ofEffects]
  rw [List.filter_congr same]
  rfl

/-! ## The sum of the counts -/

theorem countP_fetched_lt_succ (n : Nat) (effects : List Effect) :
    effects.countP (·.fetched.any (· < n + 1)) =
      effects.countP (·.fetched.any (· < n)) + effects.countP (·.fetched == some n) := by
  induction effects with
  | nil => rfl
  | cons e effects ih =>
    have here : (if e.fetched.any (· < n + 1) then 1 else 0) =
        (if e.fetched.any (· < n) then 1 else 0) + if e.fetched == some n then 1 else 0 := by
      rcases e.fetched with _ | a
      · rfl
      · simp only [Option.any_some, decide_eq_true_eq, beq_iff_eq, Option.some.injEq,
          Nat.lt_succ_iff_lt_or_eq]
        by_cases below : a < n
        · simp only [below, Nat.ne_of_lt below, true_or, if_true, if_false]
        · simp only [below, false_or, if_false, Nat.zero_add]
    simp only [List.countP_cons, ih, here]
    omega

theorem sum_countP_fetched (n : Nat) (effects : List Effect) :
    ((List.range n).map fun a => effects.countP (·.fetched == some a)).sum =
      effects.countP (·.fetched.any (· < n)) := by
  induction n with
  | zero => simp
  | succ n ih => rw [List.range_succ, List.map_append, List.sum_append, ih,
      countP_fetched_lt_succ, List.map_singleton, List.sum_singleton]

theorem executions_eq_sum (activity : Activity) :
    activity.executions = ((List.range memorySize).map fun a => (activity.cell a).executed).sum := by
  have counts : activity.toList.map (·.executed) =
      (List.range memorySize).map fun a => (activity.cell a).executed := by
    refine List.ext_getElem (by simp) fun a _ within => ?_
    have within : a < memorySize := by simpa using within
    simp [cell_eq_getElem within]
  rw [executions, counts]

/-- If no executed count has stopped, they sum to how often a word was fetched. -/
theorem Shows.executions (shows : activity.Shows effects)
    (few : ∀ a < memorySize, effects.countP (·.fetched == some a) ≤ countLimit)
    (inside : ∀ e ∈ effects, ∀ a, e.fetched = some a → a < memorySize) :
    activity.executions = effects.countP (·.fetched.isSome) := by
  have counts : (List.range memorySize).map (fun a => (activity.cell a).executed) =
      (List.range memorySize).map fun a => effects.countP (·.fetched == some a) := by
    refine List.map_congr_left fun a member => ?_
    have within := List.mem_range.1 member
    rw [cell_eq_getElem within, shows a within, ofEffects, Nat.min_eq_left (few a within)]
  rw [executions_eq_sum, counts, sum_countP_fetched]
  refine List.countP_congr fun e mem => ?_
  cases fetched : e.fetched with
  | none => simp
  | some a => simp [inside e mem a fetched]

/-- A count for each cell, none beyond the limit, sums to a number of 64 bits. -/
theorem Shows.executions_lt (shows : activity.Shows effects) : activity.executions < 2 ^ 64 := by
  have most : ∀ n ∈ (List.range memorySize).map (fun a => (activity.cell a).executed),
      n ≤ countLimit := by
    intro n counted
    obtain ⟨a, member, rfl⟩ := List.mem_map.1 counted
    have within := List.mem_range.1 member
    rw [cell_eq_getElem within, shows a within]
    exact Nat.min_le_right _ _
  have sum := List.sum_le_card_nsmul _ countLimit most
  rw [List.length_map, List.length_range] at sum
  rw [executions_eq_sum]
  exact Nat.lt_of_le_of_lt sum (by decide)

theorem Shows.total (shows : activity.Shows effects) (few : effects.length ≤ countLimit)
    (inside : ∀ e ∈ effects, ∀ a, e.fetched = some a → a < memorySize) :
    activity.executions = effects.countP (·.fetched.isSome) :=
  shows.executions (fun _ _ => Nat.le_trans List.countP_le_length few) inside

end Activity
end LittleMan
