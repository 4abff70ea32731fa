import LittleMan.Proofs.Session.Course
import LittleMan.Proofs.Session.Limited
import LittleMan.Proofs.Session.Transcript

/-!
# What a limited run spends

A run with a limit ends within a number of turns that the limit fixes, fetches at most as many words
and reads at most as many pieces of input as the limit allows, whatever its program is and whatever
its device answers (`limited_within`). Every move takes what it fetches off the allowance
(`Course.spends`), and an input can only be asked for by a word that was fetched since the last one,
or that the session was left with (`Course.readings_le`).
-/

namespace LittleMan

open Machine (Move fetches inputs)

/-- A device that answers as it likes, by all that was exchanged with it before. -/
def Device.answering (piece : Transcript → Option Text) : Device (StateM Transcript) where
  read := fun t => (piece t, t ++ [.took (piece t)])
  write value := fun t => ((), t ++ [.wrote value])

namespace Session

variable {m : Type → Type} [Monad m] {σ : Type} {x : Surroundings m σ} {io : Bool}
  {limit set : UInt64} {first s s' : Session} {w w' : σ} {turn' : Turn} {outcome : Outcome}
  {moves : List Move} {e : Effect} {next : Machine} {turns : Nat}

/-! ## The words that are fetched -/

/-- What a step fetches is taken off the allowance. -/
theorem spends_step (next : Machine) (left : 0 < allowance limit set s.executed) :
    fetches [.step e] + allowance limit set (s.afterStep e next).executed =
      allowance limit set s.executed := by
  cases fetched : e.fetched with
  | none => simp [fetches, Machine.Move.fetches, afterStep, fetched]
  | some address =>
    have fewer := allowance_succ left
    simp only [fetches, Machine.Move.fetches, afterStep, fetched, List.countP_singleton,
      Option.isSome_some, if_true]
    omega

/-- What a turn fetches is taken off the allowance. -/
theorem Taken.spends (taken : Taken (x.limited limit first) io s w turn' w') :
    fetches ((x.limited limit first).move? io s w).toList +
      allowance limit first.executed turn'.session.executed =
        allowance limit first.executed s.executed := by
  have allowed {e : Effect} (made : (x.limited limit first).move? io s w = some (.step e)) :
      0 < allowance limit first.executed s.executed := by
    simpa using goesOn_of_step made
  cases turn' with
  | more s' =>
    obtain ⟨move, made, onward⟩ := taken.onward
    rw [made]
    cases onward with
    | step => exact spends_step _ (allowed made)
    | input => simp [fetches, Machine.Move.fetches, Turn.session, start]
  | ended outcome =>
    have final := taken.final
    cases made : (x.limited limit first).move? io s w with
    | none =>
      rw [made] at final
      cases final with
      | still machine executed => simp [Turn.session, executed]
    | some move =>
      rw [made] at final
      cases final with
      | @broken e next => exact spends_step next (allowed made)

theorem Course.spends (course : Course (x.limited limit first) io s w moves outcome w') :
    fetches moves + allowance limit first.executed outcome.2.executed =
      allowance limit first.executed s.executed := by
  induction course with
  | last taken => exact taken.spends
  | @more s s' w w₁ w' moves outcome taken rest ih =>
    have here := taken.spends
    have both (earlier : List Move) : fetches (earlier ++ moves) = fetches earlier + fetches moves :=
      List.countP_append
    rw [both, Nat.add_assoc, ih]
    exact here

/-! ## The turns that are taken -/

/-- A run with a limit returns when it is allowed more turns than the limit leaves it. -/
theorem Course.returns (course : Course (x.limited limit first) io s w moves outcome w')
    (enough : turnsLeft limit first s < turns) :
    EndsWithin (x.limited limit first) io outcome w' turns s w := by
  induction course generalizing turns with
  | last taken =>
    obtain ⟨more, rfl⟩ := Nat.exists_eq_add_of_lt enough
    exact .last taken
  | more taken rest ih =>
    have fewer := turnsLeft_lt taken
    obtain ⟨more, rfl⟩ : ∃ more, turns = more + 1 := ⟨turns - 1, by omega⟩
    exact .earlier taken (ih (by omega))

theorem exists_course_limited (x : Surroundings m σ) (io : Bool) (limit : UInt64)
    (first s : Session) (w : σ) :
    ∃ moves outcome w', Course (x.limited limit first) io s w moves outcome w' := by
  obtain ⟨outcome, w', ended⟩ := exists_ends_limited x io limit first s w
  obtain ⟨moves, course⟩ := exists_course ended
  exact ⟨moves, outcome, w', course⟩

/-- The turns that a limit is enough for. -/
def turnsWithin (limit : UInt64) : Nat := 2 * limit.toNat + 3

theorem Course.returns_start (course : Course (x.limited limit s) io s.start w moves outcome w')
    (enough : turnsWithin limit ≤ turns) :
    EndsWithin (x.limited limit s) io outcome w' turns s.start w := by
  refine course.returns ?_
  have bound := turnsLeft_le limit s s.start
  have all : allowance limit s.executed s.start.executed = limit.toNat := allowance_self
  rw [all] at bound
  unfold turnsWithin at enough
  omega

/-! ## The pieces of input that are read -/

/-- The surroundings of a run with a limit and a device that answers as it likes. -/
abbrev answered (piece : Transcript → Option Text) (limit : UInt64) (first : Session) :
    Surroundings (StateM Transcript) Transcript :=
  (Surroundings.ofDevice (Device.answering piece)).limited limit first

/-- How many pieces of input a run may still read. One that is ready to fetch has to fetch first. -/
def readable (limit set : UInt64) (s : Session) : Nat :=
  match s.machine.status with
  | .halted => 0
  | .fetching => allowance limit set s.executed - 1
  | .awaitingInput => allowance limit set s.executed

section Reading

variable {piece : Transcript → Option Text} {t t' : Transcript}

theorem readings_delivered (io : Bool) (e : Effect) (t : Transcript) :
    ((answered piece limit first).delivered io e t).readings = t.readings := by
  cases io with
  | false => rfl
  | true =>
    cases output : e.output with
    | none => simp [Surroundings.delivered, output]
    | some value =>
      simp [Surroundings.delivered, output, Surroundings.limited, Surroundings.ofDevice,
        Device.answering]

theorem readings_took (t : Transcript) :
    ((answered piece limit first).took t).readings = t.readings + 1 := by
  simp [Surroundings.limited, Surroundings.ofDevice, Device.answering]

theorem readable_le (limit set : UInt64) (s : Session) :
    readable limit set s ≤ allowance limit set s.executed := by
  unfold readable
  split <;> omega

/-- A step of a machine leaves no more to read than there was. -/
theorem readable_step (status : s.machine.status = .fetching)
    (left : 0 < allowance limit set s.executed) (taken : s.machine.step s.flags = .ok (e, next)) :
    readable limit set (s.afterStep e next) ≤ readable limit set s := by
  have now : readable limit set s = allowance limit set s.executed - 1 := by simp [readable, status]
  cases fetched : e.fetched with
  | none =>
    have halted := (Machine.step_ok_iff.1 taken).halted_of_unfetched fetched
    simp [readable, afterStep, Machine.status_halted.2 halted]
  | some address =>
    have fewer := allowance_succ left
    have bound := readable_le limit set (s.afterStep e next)
    simp only [afterStep, fetched, Option.isSome_some, if_true] at bound ⊢
    omega

/-- An input leaves one piece less to read. -/
theorem readable_supplied {text : Text} (status : s.machine.status = .awaitingInput)
    (left : 0 < allowance limit set s.executed)
    (accepted : s.machine.resume s.flags text = .ok next) :
    readable limit set { s with machine := next }.start + 1 ≤ readable limit set s := by
  obtain ⟨-, value, -, rfl⟩ := Machine.resume_ok_iff.1 accepted
  have now : readable limit set s = allowance limit set s.executed := by simp [readable, status]
  rw [now]
  simp only [readable, start]
  split
  next => omega
  next => omega
  next awaits => exact absurd awaits (Machine.status_supplied _ _)

/-- No more is read than is readable, turn by turn. -/
theorem Taken.readings_more (taken : Taken (answered piece limit first) true s t (.more s') t') :
    t'.readings + readable limit first.executed s' ≤
      t.readings + readable limit first.executed s := by
  cases taken with
  | @stepped e next status yes taken goesOn =>
    have fewer := readable_step status (by simpa using yes) taken
    rw [readings_delivered]
    exact Nat.add_le_add_left fewer _
  | @supplied t₁ text next status withDevice yes asked read accepted =>
    cases asked
    have fewer := readable_supplied status (by simpa using yes) accepted
    have once : ((answered piece limit first).took t).readings = t.readings + 1 := readings_took t
    show ((answered piece limit first).took t).readings + _ ≤ _
    omega

theorem Taken.readings_ended
    (taken : Taken (answered piece limit first) true s t (.ended outcome) t') :
    t'.readings ≤ t.readings + readable limit first.executed s := by
  have once : ((answered piece limit first).took t).readings = t.readings + 1 := readings_took t
  have reads (status : s.machine.status = .awaitingInput)
      (yes : (answered piece limit first).goesOn { s with pause := .awaitingInput } t = true) :
      ((answered piece limit first).took t).readings ≤
        t.readings + readable limit first.executed s := by
    have left : 0 < allowance limit first.executed s.executed := by simpa using yes
    have all : readable limit first.executed s = allowance limit first.executed s.executed := by
      simp [readable, status]
    omega
  cases taken with
  | broken status yes taken atBreak =>
    rw [readings_delivered]
    exact Nat.le_add_right _ _
  | starved status withDevice yes asked empty => cases asked; exact reads status yes
  | rejected status withDevice yes asked read refused => cases asked; exact reads status yes
  | _ => exact Nat.le_add_right _ _

theorem Course.readings_le
    (course : Course (answered piece limit first) true s t moves outcome t') :
    t'.readings ≤ t.readings + readable limit first.executed s := by
  induction course with
  | last taken => exact taken.readings_ended
  | more taken rest ih => exact Nat.le_trans ih taken.readings_more

theorem Taken.inputs_ended (taken : Taken x io s w (.ended outcome) w') :
    inputs (x.move? io s w).toList = [] := by
  have final := taken.final
  cases made : x.move? io s w with
  | none => rfl
  | some move =>
    rw [made] at final
    cases final with
    | broken => rfl

theorem Taken.inputs_more (taken : Taken (answered piece limit first) true s t (.more s') t') :
    t'.readings =
      t.readings + (inputs ((answered piece limit first).move? true s t).toList).length := by
  cases taken with
  | @stepped e next status yes taken goesOn =>
    rw [move?_of_step status yes taken, readings_delivered]
    rfl
  | @supplied t₁ text next status withDevice yes asked read accepted =>
    cases asked
    rw [move?_of_input status yes read accepted]
    exact readings_took t

/-- Before its last turn, a run has read what its machine took in. -/
theorem Course.exists_last
    (course : Course (answered piece limit first) true s t moves outcome t') :
    ∃ s₁ t₁, Taken (answered piece limit first) true s₁ t₁ (.ended outcome) t' ∧
      t₁.readings = t.readings + (inputs moves).length := by
  induction course with
  | @last s t t' outcome taken => exact ⟨s, t, taken, by simp [taken.inputs_ended]⟩
  | @more s s' t t₁ t' moves outcome taken rest ih =>
    obtain ⟨s₁, t₂, last, read⟩ := ih
    have here := taken.inputs_more
    have both (earlier : List Move) : inputs (earlier ++ moves) = inputs earlier ++ inputs moves :=
      List.filterMap_append
    refine ⟨s₁, t₂, last, ?_⟩
    rw [both, List.length_append]
    omega

/-- A run that pauses while input is awaited was not allowed to read it, or found none. -/
theorem Taken.unread (taken : Taken (answered piece limit first) true s t (.ended outcome) t')
    (paused : outcome.1 = .ok ()) (awaits : outcome.2.machine.status = .awaitingInput) :
    (allowance limit first.executed outcome.2.executed = 0 ∧ t' = t) ∨
      t' = t ++ [.took none] := by
  cases taken with
  | unasked status withDevice no => exact .inl ⟨by simpa using no, rfl⟩
  | starved status withDevice yes asked empty =>
    cases asked
    have none : piece t = none := empty
    right
    show t ++ [.took (piece t)] = _
    rw [none]
  | waiting status alone => cases alone
  | faulted | rejected => cases paused
  | broken status yes taken atBreak =>
    have fetching := (atBreakpoint_iff.1 atBreak).1
    cases awaits.symm.trans fetching
  | halted status | stopped status => cases awaits.symm.trans status

end Reading

/-! ## What a limited run keeps to -/

/-- A run that pauses where its machine could go on, and not at a breakpoint, spent its limit. -/
theorem Taken.spent (taken : Taken (x.limited limit first) io s w (.ended outcome) w')
    (paused : outcome.1 = .ok ()) (fetching : outcome.2.machine.status = .fetching)
    (unbroken : outcome.2.brokeLast = false) :
    allowance limit first.executed outcome.2.executed = 0 := by
  cases taken with
  | stopped status no => simpa using no
  | broken => cases unbroken
  | faulted | rejected => cases paused
  | halted status | waiting status | unasked status | starved status =>
    cases fetching.symm.trans status

/-- What a run with a limit keeps to, by its moves, its end, and what it exchanged with its
device. -/
structure WithinLimit (limit : UInt64) (moves : List Move) (outcome : Outcome)
    (exchanged : Transcript) : Prop where
  fetches_le : fetches moves ≤ limit.toNat
  readings_le : exchanged.readings ≤ limit.toNat
  /-- A run that pauses with its machine ready to fetch, at no breakpoint, spent its limit. -/
  spent : outcome.1 = .ok () → outcome.2.machine.status = .fetching →
    outcome.2.brokeLast = false → fetches moves = limit.toNat

theorem Course.fetches_add (course : Course (x.limited limit s) io s.start w moves outcome w') :
    fetches moves + allowance limit s.executed outcome.2.executed = limit.toNat :=
  course.spends.trans allowance_self

theorem Course.withinLimit (course : Course (x.limited limit s) io s.start w moves outcome w')
    {exchanged : Transcript} (readings_le : exchanged.readings ≤ limit.toNat) :
    WithinLimit limit moves outcome exchanged := by
  have all := course.fetches_add
  refine ⟨by omega, readings_le, ?_⟩
  intro paused fetching unbroken
  obtain ⟨s₁, w₁, taken⟩ := exists_last_turn course.ends
  have none := taken.spent paused fetching unbroken
  omega

/-- A run with a limit returns, whatever its device answers, and keeps to its limit. If it pauses
while input is awaited, the limit is spent and the input unread, or the device had no more. A run
without a device that pauses so waits. -/
theorem limited_within (s : Session) (limit : UInt64) (piece : Transcript → Option Text) :
    (∃ moves outcome exchanged,
      Course (answered piece limit s) true s.start [] moves outcome exchanged ∧
      (∀ turns ≥ turnsWithin limit,
        s.runWith (.limited Host.unnoted limit s) (.answering piece) turns [] =
          (some outcome, exchanged)) ∧
      WithinLimit limit moves outcome exchanged ∧
      (outcome.1 = .ok () → outcome.2.awaitsInput = true →
        (fetches moves = limit.toNat ∧ exchanged.readings = (inputs moves).length) ∨
          ∃ earlier, exchanged = earlier ++ [.took none])) ∧
    ∃ moves outcome,
      Course (Surroundings.alone.limited limit s) false s.start () moves outcome () ∧
      (∀ turns ≥ turnsWithin limit, s.runLimited limit turns = some outcome) ∧
      WithinLimit limit moves outcome [] ∧
      (outcome.1 = .ok () → outcome.2.awaitsInput = true → outcome.2.pause = .awaitingInput) := by
  constructor
  · obtain ⟨moves, outcome, exchanged, course⟩ :=
      exists_course_limited (.ofDevice (.answering piece)) true limit s s.start []
    have all := course.fetches_add
    have read := course.readings_le
    have most : readable limit s.executed s.start ≤ limit.toNat :=
      Nat.le_trans (readable_le ..) (Nat.le_of_eq allowance_self)
    refine ⟨moves, outcome, exchanged, course,
      fun turns enough => (course.returns_start enough).runWith (Nat.le_refl turns),
      course.withinLimit (Nat.le_trans read (by simpa using most)), ?_⟩
    intro paused awaits
    obtain ⟨s₁, t₁, taken, supplied⟩ := course.exists_last
    rcases taken.unread paused (beq_iff_eq.1 awaits) with ⟨none, rfl⟩ | rfl
    · exact .inl ⟨by omega, by simpa using supplied⟩
    · exact .inr ⟨t₁, rfl⟩
  · obtain ⟨moves, outcome, ⟨⟩, course⟩ :=
      exists_course_limited Surroundings.alone false limit s s.start ()
    refine ⟨moves, outcome, course,
      fun turns enough => congrArg Prod.fst (eval_continueRun_iff.2 (course.returns_start enough)),
      course.withinLimit (Nat.zero_le _), ?_⟩
    intro paused awaits
    obtain ⟨s₁, w₁, taken⟩ := exists_last_turn course.ends
    have awaits := beq_iff_eq.1 awaits
    cases taken with
    | waiting => rfl
    | faulted => cases paused
    | unasked status withDevice | starved status withDevice | rejected status withDevice =>
      cases withDevice
    | broken status yes taken atBreak =>
      have fetching := (atBreakpoint_iff.1 atBreak).1
      cases awaits.symm.trans fetching
    | halted status | stopped status => cases awaits.symm.trans status

/-- A device that never runs out is read until the limit is spent, though the count wraps on the
way. -/
example :
    let device := Device.answering fun _ => some "7".toList
    let ended := copier.runWith (.limited Host.unnoted 5 copier) device (turnsWithin 5) []
    ended.2.readings = 2 ∧ ended.1.map (·.2.executed) = some 4 := by
  decide +kernel

end Session
end LittleMan
