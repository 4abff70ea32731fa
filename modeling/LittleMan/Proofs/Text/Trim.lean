import LittleMan.Text.Blank
import Mathlib.Data.List.DropRight

/-!
# Trimmed texts

A text that was trimmed has nothing to trim at either end. What is trimmed off is all of one kind,
in front of the rest and behind it (`exists_trim`).
-/

namespace LittleMan.Text

variable (p : Char → Bool) (t : Text)

theorem trimRight_eq_rdropWhile : trimRight p t = t.rdropWhile p := rfl

/-- Dropping more of the front of a text leaves the end trimmed. -/
theorem trimRight_trim : trimRight p (trim p t) = trim p t := by
  rw [trim, trimRight_eq_rdropWhile, trimRight_eq_rdropWhile, List.rdropWhile_eq_self_iff]
  intro shown
  have suffix := List.dropWhile_suffix (l := t.rdropWhile p) p
  rw [suffix.getLast shown]
  exact List.rdropWhile_last_not p t (suffix.ne_nil shown)

theorem trim_trim : trim p (trim p t) = trim p t := by
  have front : (trim p t).dropWhile p = trim p t := List.dropWhile_idempotent p (trimRight p t)
  rw [trim, trimRight_trim, front]

theorem trimBlanks_trimBlanks : trimBlanks (trimBlanks t) = trimBlanks t := trim_trim isBlank t

theorem head?_dropWhile : ∀ c ∈ (t.dropWhile p).head?, p c = false := by
  intro c head
  have stops := List.head?_dropWhile_not p t
  rwa [Option.mem_def.1 head] at stops

/-- A run of characters that satisfy `p` goes on up to one that does not. -/
theorem takeWhile_append_of_stops {p : Char → Bool} {t u : Text} (inside : ∀ c ∈ t, p c = true)
    (stops : ∀ c ∈ u.head?, p c = false) :
    (t ++ u).takeWhile p = t ∧ (t ++ u).dropWhile p = u := by
  rw [List.takeWhile_append_of_pos inside, List.dropWhile_append_of_pos inside]
  cases u with
  | nil => simp
  | cons c u => simp [stops c rfl]

theorem getLast?_trimRight : ∀ c ∈ (trimRight p t).getLast?, p c = false := by
  intro c last
  rw [trimRight, List.getLast?_reverse] at last
  exact head?_dropWhile p t.reverse c last

theorem head?_trim : ∀ c ∈ (trim p t).head?, p c = false := head?_dropWhile p (trimRight p t)

theorem getLast?_trim : ∀ c ∈ (trim p t).getLast?, p c = false := by
  rw [← trimRight_trim]
  exact getLast?_trimRight p (trim p t)

/-- What is trimmed off, in front and behind. If nothing is left, it was all behind. -/
theorem exists_trim : ∃ front back, t = front ++ trim p t ++ back ∧
    trimRight p t = front ++ trim p t ∧ (∀ c ∈ front, p c = true) ∧ (∀ c ∈ back, p c = true) ∧
    (trim p t = [] → front = []) := by
  have right : (trimRight p t).takeWhile p ++ trim p t = trimRight p t :=
    List.takeWhile_append_dropWhile
  refine ⟨(trimRight p t).takeWhile p, t.rtakeWhile p, ?_, right.symm,
    fun c => List.all_eq_true.1 List.all_takeWhile c, fun c => List.mem_rtakeWhile_imp,
    fun none => ?_⟩
  · rw [right, trimRight_eq_rdropWhile]
    exact List.rdropWhile_append_rtakeWhile.symm
  · rw [none, List.append_nil] at right
    cases last : (trimRight p t).getLast? with
    | none => rw [List.getLast?_eq_none_iff.1 last, List.takeWhile_nil]
    | some c =>
      have other := getLast?_trimRight p t c last
      rw [← right] at last
      have same := List.all_eq_true.1 List.all_takeWhile c (List.mem_of_mem_getLast? last)
      rw [other] at same
      cases same

variable {p t} {u : Text}

theorem trimRight_append_of_forall (all : ∀ c ∈ u, p c = true) :
    trimRight p (t ++ u) = trimRight p t := by
  rw [trimRight, List.reverse_append, List.dropWhile_append_of_pos, trimRight]
  exact fun c member => all c (List.mem_reverse.1 member)

end LittleMan.Text
