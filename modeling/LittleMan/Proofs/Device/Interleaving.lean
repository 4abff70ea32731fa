import LittleMan.Proofs.Device.Channel

/-!
# Channel devices under every schedule

The reader, the writer and the run take their turns at a channel device in any order. Whatever the
order is, the run reads the pieces of the source in order, each once, and learns that there are no
more when it has read them all. When the device is closed and the writer has stopped, the target was
given the values that were written, in order, up to the first after which it refused to go on
(`delivers_in_order`). A device that serves a run alone takes the turns of one such schedule
(`actAll_read`, `actAll_write`).
-/

namespace LittleMan

namespace Channel

/-! ## Every schedule -/

/-- What happens at a channel device: a turn of a party, or a call of the run. -/
inductive Action where
  | reader
  | writer
  | read
  | write (value : Word)
  | close
deriving DecidableEq, Repr

/-- A channel device, with the answers that the run got and the values that it wrote. -/
structure History where
  channel : Channel := {}
  answers : List (Option Text) := []
  written : List Word := []

variable {p : Parties} {c c' : Channel} {h : History}

namespace History

/-- A call that gets no answer waits, and changes nothing. A run that has closed the device makes no
more calls.

Whoever stops gives up its ends of the channels in the same turn. It would come to the same if
others acted in between: a read would wait, and a value that is written would wait for a writer that
never takes it. -/
def act (p : Parties) (h : History) : Action → History
  | .reader => { h with channel := h.channel.readerTurn p }
  | .writer => { h with channel := h.channel.writerTurn p }
  | .read =>
    if h.channel.closed then h
    else match h.channel.receive? with
      | some (answer, channel) => { h with channel, answers := h.answers ++ [answer] }
      | none => h
  | .write value =>
    if h.channel.closed then h
    else match h.channel.send? value with
      | some (_, channel) => { h with channel, written := h.written ++ [value] }
      | none => h
  | .close => { h with channel := h.channel.close }

/-- The history after actions, the first of the list first. -/
def actAll (p : Parties) (h : History) (actions : List Action) : History :=
  actions.foldl (act p) h

@[simp] theorem actAll_cons (p : Parties) (h : History) (action : Action) (actions : List Action) :
    h.actAll p (action :: actions) = (h.act p action).actAll p actions := rfl

theorem act_read (p : Parties) (h : History) :
    h.act p .read = h ∨
      ∃ answer c, h.channel.closed = false ∧ h.channel.receive? = some (answer, c) ∧
        h.act p .read = { h with channel := c, answers := h.answers ++ [answer] } := by
  cases shut : h.channel.closed with
  | true => simp [act, shut]
  | false =>
    cases got : h.channel.receive? with
    | none => simp [act, shut, got]
    | some result => exact .inr ⟨result.1, result.2, rfl, rfl, by simp [act, shut, got]⟩

theorem act_write (p : Parties) (h : History) (value : Word) :
    h.act p (.write value) = h ∨
      ∃ heeded c, h.channel.closed = false ∧ h.channel.send? value = some (heeded, c) ∧
        h.act p (.write value) = { h with channel := c, written := h.written ++ [value] } := by
  cases shut : h.channel.closed with
  | true => simp [act, shut]
  | false =>
    cases sent : h.channel.send? value with
    | none => simp [act, shut, sent]
    | some result => exact .inr ⟨result.1, result.2, rfl, rfl, by simp [act, shut, sent]⟩

/-- What holds however the actions are scheduled. -/
structure Kept (p : Parties) (h : History) : Prop where
  reads : ∃ received ends, Reads p h.answers received ends h.channel
  writes : Writes p h.written h.channel

theorem kept_start (p : Parties) : Kept p {} := ⟨⟨[], 0, reads_start p⟩, writes_start p⟩

theorem Kept.act (kept : Kept p h) (action : Action) : Kept p (h.act p action) := by
  obtain ⟨received, ends, reads⟩ := kept.reads
  cases action with
  | reader =>
    have turn := readerTurn_taken p h.channel
    exact ⟨⟨received, ends, reads.readerTurn turn⟩, kept.writes.of_same turn.sameWriter⟩
  | writer =>
    have turn := writerTurn_taken p h.channel
    exact ⟨⟨received, ends, reads.of_same turn.sameReader⟩, kept.writes.writerTurn turn⟩
  | read =>
    rcases act_read p h with waits | ⟨answer, c, isOpen, got, acted⟩
    · rw [waits]
      exact kept
    · rw [acted]
      exact ⟨reads.receive isOpen got, kept.writes.of_same (sameWriter_receive got)⟩
  | write value =>
    rcases act_write p h value with waits | ⟨heeded, c, isOpen, sent, acted⟩
    · rw [waits]
      exact kept
    · rw [acted]
      exact ⟨⟨received, ends, reads.of_same (sameReader_send sent)⟩, kept.writes.send isOpen sent⟩
  | close => exact ⟨⟨received, ends, reads.close⟩, kept.writes.close⟩

theorem Kept.actAll (kept : Kept p h) (actions : List Action) : Kept p (h.actAll p actions) := by
  induction actions generalizing h with
  | nil => exact kept
  | cons action actions ih => exact ih (kept.act action)

theorem spent_act (spent : h.channel.Spent) (action : Action) : (h.act p action).channel.Spent := by
  cases action with
  | reader => simpa [act, readerTurn, spent.1] using spent
  | writer => exact spent.of_same (writerTurn_taken p h.channel).sameReader
  | read =>
    rcases act_read p h with waits | ⟨answer, c, isOpen, got, acted⟩
    · rw [waits]
      exact spent
    · rw [spent.receive?] at got
      cases got
      exact acted ▸ spent
  | write value =>
    rcases act_write p h value with waits | ⟨heeded, c, isOpen, sent, acted⟩
    · rw [waits]
      exact spent
    · rw [acted]
      exact spent.of_same (sameReader_send sent)
  | close => exact ⟨spent.1, rfl⟩

theorem spent_actAll (spent : h.channel.Spent) (actions : List Action) :
    (h.actAll p actions).channel.Spent := by
  induction actions generalizing h with
  | nil => exact spent
  | cons action actions ih => exact ih (spent_act spent action)

/-- No action keeps the writer of a closed device from stopping, and its own turns bring it there. -/
theorem writerTurnsLeft_act (shut : h.channel.closed = true) (action : Action) :
    (h.act p action).channel.closed = true ∧
      (h.act p action).channel.writerTurnsLeft ≤
        h.channel.writerTurnsLeft - [action].count .writer := by
  cases action with
  | reader =>
    have same := (readerTurn_taken p h.channel).sameWriter
    exact ⟨same.closed.trans shut, Nat.le_of_eq (writerTurnsLeft_of_same same)⟩
  | writer =>
    have turn := writerTurn_taken p h.channel
    exact ⟨turn.sameReader.closed.trans shut, turn.turnsLeft shut⟩
  | read => simp [act, shut]
  | write value => simp [act, shut]
  | close => exact ⟨rfl, Nat.le_refl _⟩

theorem writerTurnsLeft_actAll (shut : h.channel.closed = true) (actions : List Action) :
    (h.actAll p actions).channel.writerTurnsLeft ≤
      h.channel.writerTurnsLeft - actions.count .writer := by
  induction actions generalizing h with
  | nil => exact Nat.le_refl _
  | cons action actions ih =>
    obtain ⟨shut, here⟩ := writerTurnsLeft_act (p := p) shut action
    have rest := ih shut
    have count : (action :: actions).count .writer =
        [action].count .writer + actions.count .writer := by
      rw [← List.singleton_append, List.count_append]
    rw [actAll_cons]
    omega

end History

/-- Whatever the source answers and whenever the target refuses to go on, and in whatever order the
parties and the run take their turns, the run reads the pieces of the source in order, and learns
that there are no more when it has read them all, from then on each time. When the writer has
stopped, the target was given what was written, up to the first value after which it refused to go
on, and the writer stops when the device is closed and it gets its turns. -/
theorem delivers_in_order (p : Parties) (actions : List Action) :
    let h := History.actAll p {} actions
    (∃ received ends, h.answers = received.map some ++ List.replicate ends none ∧
      p.Brings received ∧
      (ends ≠ 0 → h.channel.readerStopped = true ∧ p.source received.length = none ∧
        ∀ more, let later := h.actAll p more
          later.channel.receive? = some (none, later.channel))) ∧
    (h.channel.writerStopped = true → p.Heard h.written h.channel.given) ∧
    (h.channel.closed = true → ∀ more : List Action, 4 ≤ more.count .writer →
      (h.actAll p more).channel.writerStopped = true) := by
  intro h
  have kept : History.Kept p h := (History.kept_start p).actAll actions
  obtain ⟨received, ends, reads⟩ := kept.reads
  refine ⟨⟨received, ends, reads.answers_eq, reads.brings, ?_⟩, kept.writes.heard, ?_⟩
  · intro told
    obtain ⟨stopped, empty, no⟩ := reads.ended told
    exact ⟨stopped, no, fun more => (History.spent_actAll ⟨stopped, empty⟩ more).receive?⟩
  · intro shut more enough
    have most := h.channel.writerTurnsLeft_le
    have left := History.writerTurnsLeft_actAll (p := p) shut more
    exact writerStopped_of_writerTurnsLeft (by omega)

/-- The reader is ahead of the run, which writes two values that the target does not get: one waits
when the target refuses to go on, and nobody takes the other. -/
example :
    let p : Parties :=
      { source := fun k => ["1".toList, "2".toList][k]?, refuses := fun given => given.length = 2 }
    let h := History.actAll p {}
      [.reader, .reader, .reader, .write 7, .read, .writer, .write 8, .reader, .writer, .writer,
        .write 9, .writer, .write 6, .read, .reader, .read, .close]
    h.answers = [some "1".toList, some "2".toList, none] ∧ h.written = [7, 8, 9, 6] ∧
      h.channel.given = [7, 8] ∧ h.channel.writerStopped = true := by
  decide

/-! ## The device of a run -/

/-- The writer holds nothing and nothing waits for it, or it has stopped. -/
def Idle (c : Channel) : Prop := c.writerStopped = true ∨ (c.taken = none ∧ c.outbox = none)

theorem Idle.of_same (idle : c.Idle) (same : SameWriter c c') : c'.Idle := by
  rwa [Idle, same.writerStopped, same.taken, same.outbox]

/-- After two turns of the reader there is an answer for the run. -/
theorem isSome_receive? (p : Parties) (isOpen : c.closed = false) :
    ((c.readerTurn p).readerTurn p).receive?.isSome = true := by
  cases stopped : c.readerStopped with
  | true => cases waits : c.inbox <;> simp [readerTurn, receive?, stopped, waits]
  | false =>
    cases held : c.fetched <;> cases waits : c.inbox <;> cases next : p.source c.asked <;>
      simp [readerTurn, receive?, isOpen, stopped, held, waits, next]

/-- The writer of an idle device stops within two turns when the device is closed. -/
theorem writerStopped_finish (p : Parties) (idle : c.Idle) :
    ((c.close.writerTurn p).writerTurn p).writerStopped = true := by
  cases stopped : c.writerStopped with
  | true => simp [close, writerTurn, stopped]
  | false =>
    obtain ⟨held, free⟩ := idle.resolve_left (by simp [stopped])
    simp [close, writerTurn, stopped, held, free]

theorem idle_read (idle : c.Idle) (isOpen : c.closed = false) :
    (c.read p).2.Idle ∧ (c.read p).2.closed = false := by
  have first := (readerTurn_taken p c).sameWriter
  have second := (readerTurn_taken p (c.readerTurn p)).sameWriter
  obtain ⟨⟨answer, last⟩, got⟩ := Option.isSome_iff_exists.1 (isSome_receive? p isOpen)
  have third := sameWriter_receive got
  have read : (c.read p).2 = last := by simp [Channel.read, got]
  rw [read]
  exact ⟨((idle.of_same first).of_same second).of_same third,
    third.closed.trans (second.closed.trans (first.closed.trans isOpen))⟩

theorem idle_write (idle : c.Idle) (isOpen : c.closed = false) (value : Word) :
    (c.write p value).2.Idle ∧ (c.write p value).2.closed = false := by
  cases stopped : c.writerStopped with
  | true => simpa [Channel.write, send?, stopped] using And.intro idle isOpen
  | false =>
    obtain ⟨held, free⟩ := idle.resolve_left (by simp [stopped])
    simp [Channel.write, send?, writerTurn, stopped, free, held, isOpen, Idle]

namespace History

/-- When a run's device reads, the reader takes two turns before the run reads. -/
theorem actAll_read (isOpen : h.channel.closed = false) :
    h.actAll p [.reader, .reader, .read] =
      { h with channel := (h.channel.read p).2, answers := h.answers ++ [(h.channel.read p).1] } := by
  obtain ⟨⟨answer, c⟩, got⟩ := Option.isSome_iff_exists.1 (isSome_receive? p isOpen)
  have stillOpen : ((h.channel.readerTurn p).readerTurn p).closed = false := by
    rw [(readerTurn_taken p _).sameWriter.closed, (readerTurn_taken p _).sameWriter.closed, isOpen]
  simp [actAll, act, Channel.read, got, stillOpen]

/-- When a run's device writes, the writer takes two turns after the run has written. -/
theorem actAll_write (isOpen : h.channel.closed = false) (idle : h.channel.Idle) (value : Word) :
    h.actAll p [.write value, .writer, .writer] =
      { h with channel := (h.channel.write p value).2, written := h.written ++ [value] } := by
  cases stopped : h.channel.writerStopped with
  | true => simp [actAll, act, Channel.write, send?, writerTurn, isOpen, stopped]
  | false =>
    obtain ⟨-, free⟩ := idle.resolve_left (by simp [stopped])
    simp [actAll, act, Channel.write, send?, isOpen, stopped, free]

end History

end Channel

end LittleMan
