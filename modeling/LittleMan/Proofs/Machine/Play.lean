import LittleMan.Proofs.Machine.Step

/-!
# A machine with its inputs at hand

The machine by itself, without sessions and devices: it is given all its inputs at once, and it runs
until it stops. How many moves it is allowed makes no difference once it has stopped (`play_add`).
-/

namespace LittleMan.Machine

/-- What the machine puts out until it stops, and the machine then. It stops when it halts, when as
many words were fetched as the limit allows, when there is no input left for it, and at a word that
strict simulation refuses. There is no answer if it makes more than a number of moves. -/
def play (flags : Flags) (limit : Option Nat) :
    Nat → Nat → Machine → List Text → Option (List Word × Machine)
  | 0, _, _, _ => none
  | moves + 1, fetched, m, inputs =>
    if m.halted || limit.any (· ≤ fetched) then some ([], m)
    else if m.pending then
      match inputs with
      | [] => some ([], m)
      | input :: rest =>
        match m.resume flags input with
        | .error _ => some ([], m)
        | .ok next => play flags limit moves fetched next rest
    else
      match m.step flags with
      | .error _ => some ([], m)
      | .ok (e, next) =>
        let fetched := if e.fetched.isSome then fetched + 1 else fetched
        (play flags limit moves fetched next inputs).map fun (outs, last) =>
          (e.output.toList ++ outs, last)

variable {flags : Flags} {limit : Option Nat} {m next last : Machine} {fetched moves : Nat}
  {inputs : List Text} {outs : List Word}

theorem play_add (more : Nat)
    (played : play flags limit moves fetched m inputs = some (outs, last)) :
    play flags limit (moves + more) fetched m inputs = some (outs, last) := by
  induction moves generalizing fetched m inputs outs with
  | zero => cases played
  | succ moves ih =>
    rw [Nat.add_right_comm]
    unfold play at played ⊢
    by_cases stops : (m.halted || limit.any (· ≤ fetched)) = true
    · rw [if_pos stops] at played ⊢
      exact played
    rw [if_neg stops] at played ⊢
    by_cases pending : m.pending = true
    · rw [if_pos pending] at played ⊢
      cases inputs with
      | nil => exact played
      | cons input rest =>
        cases resumed : m.resume flags input with
        | error => simpa [resumed] using played
        | ok next =>
          simp only [resumed] at played ⊢
          exact ih played
    · rw [if_neg pending] at played ⊢
      rcases taken : m.step flags with fault | ⟨e, next⟩
      · simpa [taken] using played
      · simp only [taken, Option.map_eq_some_iff] at played ⊢
        obtain ⟨⟨rest, final⟩, played, same⟩ := played
        cases same
        exact ⟨_, ih played, rfl⟩

/-- The machine stops with these outputs, if it makes enough moves. -/
def Plays (flags : Flags) (limit : Option Nat) (fetched : Nat) (m : Machine) (inputs : List Text)
    (outs : List Word) (last : Machine) : Prop :=
  ∃ moves, play flags limit moves fetched m inputs = some (outs, last)

namespace Plays

/-- The machine stops in one way only. -/
theorem unique {outs' : List Word} {last' : Machine}
    (one : Plays flags limit fetched m inputs outs last)
    (other : Plays flags limit fetched m inputs outs' last') : outs = outs' ∧ last = last' := by
  obtain ⟨moves, played⟩ := one
  obtain ⟨moves', played'⟩ := other
  have same := (play_add moves' played).symm.trans (Nat.add_comm .. ▸ play_add moves played')
  cases same
  exact ⟨rfl, rfl⟩

theorem halted (halted : m.halted = true) : Plays flags limit fetched m inputs [] m :=
  ⟨1, by simp [play, halted]⟩

theorem limited (reached : limit.any (· ≤ fetched) = true) :
    Plays flags limit fetched m inputs [] m :=
  ⟨1, by simp [play, reached]⟩

theorem exhausted (status : m.status = .awaitingInput) : Plays flags limit fetched m [] [] m :=
  ⟨1, by simp [play, (status_awaiting.1 status).2]⟩

theorem refused {fault : Fault} (status : m.status = .fetching)
    (refused : m.step flags = .error fault) : Plays flags limit fetched m inputs [] m :=
  ⟨1, by simp [play, (status_fetching.1 status).2, refused]⟩

theorem resumed {input : Text} (status : m.status = .awaitingInput)
    (goesOn : limit.any (· ≤ fetched) = false) (resumed : m.resume flags input = .ok next)
    (rest : Plays flags limit fetched next inputs outs last) :
    Plays flags limit fetched m (input :: inputs) outs last := by
  obtain ⟨unhalted, pending⟩ := status_awaiting.1 status
  obtain ⟨moves, played⟩ := rest
  exact ⟨moves + 1, by simp [play, unhalted, goesOn, pending, resumed, played]⟩

theorem stepped {e : Effect} (status : m.status = .fetching)
    (goesOn : limit.any (· ≤ fetched) = false) (taken : m.step flags = .ok (e, next))
    (rest : Plays flags limit (if e.fetched.isSome then fetched + 1 else fetched) next inputs outs
      last) :
    Plays flags limit fetched m inputs (e.output.toList ++ outs) last := by
  obtain ⟨unhalted, ready⟩ := status_fetching.1 status
  obtain ⟨moves, played⟩ := rest
  exact ⟨moves + 1, by simp [play, unhalted, goesOn, ready, taken, played]⟩

end Plays
end LittleMan.Machine
