import LittleMan.Proofs.CommandLine.Run
import LittleMan.Proofs.Device.Interleaving

/-!
# Running a program through a channel

The user of a program that is run may be reached through a channel device: a reader brings what the
user types, and a writer shows what the program puts out. Whatever turns these two take, the run
comes to the same end as on the terminal itself, and the user is shown the same lines, up to the
first after which the writer refuses to go on (`runOn_through`).
-/

namespace LittleMan

/-- The source has these pieces, and no more. -/
def Parties.Has (p : Parties) (pieces : List Text) : Prop := ∀ k, p.source k = pieces[k]?

namespace Channel

/-- A device that answers through a channel. Whatever happened at the channel before, the parties
take turns there and the run makes one call, while the state of the device is a good one. -/
structure Serves {τ : Type} (p : Parties) (io : Device (StateM τ)) (channel : τ → Channel)
    (good : τ → Prop) : Prop where
  read {v : τ} (h : History) (fits : h.channel = channel v) (ready : good v) :
    good (io.read v).2 ∧ ∃ actions, h.actAll p actions =
      { h with channel := channel (io.read v).2, answers := h.answers ++ [(io.read v).1] }
  write {v : τ} (h : History) (value : Word) (fits : h.channel = channel v) (ready : good v) :
    good (io.write value v).2 ∧ ∃ actions, h.actAll p actions =
      { h with channel := channel (io.write value v).2, written := h.written ++ [value] }

variable {p : Parties} {c : Channel} {h : History} {pieces received : List Text}
  {answers : List (Option Text)} {ends : Nat}

/-- The device of a run that has the channel for itself. -/
theorem serves_device (p : Parties) :
    Serves p (Channel.device p Host.unnoted) id fun c => c.Idle ∧ c.closed = false where
  read h fits ready := by
    subst fits
    exact ⟨idle_read ready.1 ready.2, _, History.actAll_read ready.2⟩
  write h value fits ready := by
    subst fits
    exact ⟨idle_write ready.1 ready.2 value, _, History.actAll_write ready.2 ready.1 value⟩

/-- The answers that a run got are the pieces of the source, and then that there are no more. -/
theorem Reads.answer_eq (reads : Reads p answers received ends c) (source : p.Has pieces) {k : Nat}
    {answer : Option Text} (got : answers[k]? = some answer) : answer = pieces[k]? := by
  rw [reads.answers_eq] at got
  rcases Nat.lt_or_ge k received.length with early | late
  · rw [List.getElem?_append_left (by simpa using early), List.getElem?_map] at got
    obtain ⟨piece, found, rfl⟩ := Option.map_eq_some_iff.1 got
    rw [← source k]
    exact (reads.brings k piece found).symm
  · rw [List.getElem?_append_right (by simpa using late), List.getElem?_replicate] at got
    obtain ⟨told, same⟩ := Option.ite_none_right_eq_some.1 got
    cases same
    have none_left := (reads.ended (by omega)).2.2
    have all := List.getElem?_eq_none_iff.1 (source _ ▸ none_left)
    exact (List.getElem?_eq_none (by omega)).symm

/-- What is written stays the same when the device is closed. -/
theorem History.written_actAll (shut : h.channel.closed = true) (actions : List Action) :
    (h.actAll p actions).written = h.written := by
  induction actions generalizing h with
  | nil => rfl
  | cons action actions ih =>
    rw [actAll_cons, ih (writerTurnsLeft_act shut action).1]
    cases action <;> simp [act, shut]

/-- If the run closes the device now, the writer stops once it gets its turns, and then the target
was given what was written, up to the first value after which it refused to go on. -/
def History.HandsOn (p : Parties) (h : History) : Prop :=
  ∀ actions, let last := h.actAll p (.close :: actions)
    (4 ≤ actions.count .writer → last.channel.writerStopped = true) ∧
      (last.channel.writerStopped = true → p.Heard h.written last.channel.given)

namespace History.Kept
variable {τ : Type} {io : Device (StateM τ)} {channel : τ → Channel} {good : τ → Prop} {v : τ}
  (kept : Kept p h)
include kept

/-- The device has an answer for the run, which is the next piece of the source if there is one. -/
theorem read (serves : Serves p io channel good) (source : p.Has pieces)
    (fits : h.channel = channel v) (ready : good v) :
    (io.read v).1 = pieces[h.answers.length]? ∧ good (io.read v).2 ∧
      Kept p { h with
        channel := channel (io.read v).2, answers := h.answers ++ [(io.read v).1] } := by
  obtain ⟨stays, actions, acted⟩ := serves.read h fits ready
  have after := acted ▸ kept.actAll actions
  obtain ⟨received, ends, reads⟩ := after.reads
  exact ⟨reads.answer_eq source (by simp), stays, after⟩

theorem write (serves : Serves p io channel good) (fits : h.channel = channel v) (ready : good v)
    (value : Word) :
    good (io.write value v).2 ∧
      Kept p { h with
        channel := channel (io.write value v).2, written := h.written ++ [value] } := by
  obtain ⟨stays, actions, acted⟩ := serves.write h value fits ready
  exact ⟨stays, acted ▸ kept.actAll actions⟩

theorem handsOn : h.HandsOn p := by
  intro actions last
  have shut : (h.act p .close).channel.closed = true := rfl
  constructor
  · intro enough
    have most := (h.act p .close).channel.writerTurnsLeft_le
    have left : last.channel.writerTurnsLeft ≤ _ := writerTurnsLeft_actAll shut actions
    exact writerStopped_of_writerTurnsLeft (by omega)
  · intro stopped
    have same : last.written = h.written := written_actAll shut actions
    exact same ▸ (kept.actAll (.close :: actions)).writes.heard stopped

end History.Kept
end Channel

namespace Session

/-- In surroundings that go along, a program that is run until something else than a bad input ends
it comes to the same end, if it is allowed enough turns. -/
theorem Follows.runOn {m n : Type → Type} [Monad m] [Monad n] {σ υ : Type} {x : Surroundings m σ}
    {y : Surroundings n υ} {R : σ → υ → Prop} (along : Follows x y true R) {turns tries : Nat}
    {s : Session} {w w' : σ} {v : υ} {outcome : Outcome}
    (ended : x.eval (CommandLine.runOn x.host x.device turns tries s) w = (some outcome, w'))
    (related : R w v) :
    ∃ v' least, R w' v' ∧ ∀ enough, least ≤ enough →
      y.eval (CommandLine.runOn y.host y.device enough tries s) v = (some outcome, v') := by
  induction tries generalizing s w v with
  | zero => simp [CommandLine.runOn] at ended
  | succ tries ih =>
    rw [CommandLine.eval_runOn_succ] at ended
    rcases ran : x.eval (s.runWith x.host x.device turns) w with ⟨_ | last, w₁⟩
    · simp [ran] at ended
    · obtain ⟨count, within⟩ := ends_iff_runWith.2 ⟨turns, ran⟩
      obtain ⟨v₁, followed, related⟩ := within.follows along related
      rw [ran] at ended
      split at ended
      next input s₁ w₂ same =>
        cases same
        obtain ⟨v', least, related, rest⟩ := ih ended related
        refine ⟨v', max count least, related, fun enough many => ?_⟩
        rw [CommandLine.eval_runOn_succ, followed.runWith (by omega)]
        exact rest enough (by omega)
      next other =>
        cases ended
        refine ⟨v₁, count, related, fun enough many => ?_⟩
        rw [CommandLine.eval_runOn_succ, followed.runWith many]
        split
        next input s₁ v₂ same =>
          cases same
          exact absurd rfl (other input s₁ w')
        next => rfl

end Session

namespace CommandLine

open Channel (History Serves)
open Console
open Session (Follows)

/-! ## The run command's device over another one -/

section Queued
variable {τ : Type}

/-- The log and the waiting of the terminal leave the state of a device alone. -/
structure Quiet (t : Terminal (StateM τ)) : Prop where
  log (text : Text) (v : τ) : t.log text v = ((), v)
  wait (milliseconds : UInt64) (v : τ) : t.wait milliseconds v = ((), v)

/-- The run of a command on a device in place of the terminal's. -/
def runOver (t : Terminal (StateM τ)) (level : Level) (settings : Settings) (io : Device (StateM τ))
    (turns tries : Nat) (s : Session) : StateT (List Text) (StateM τ) (Option Outcome) :=
  runOn (terminalHost t level settings) (.queued io) turns tries s

/-- What such a run does to the inputs of the command line that are left and to the state of the
device. -/
def queuedSurroundings {t : Terminal (StateM τ)} (quiet : Quiet t) (level : Level)
    (settings : Settings) (io : Device (StateM τ)) :
    Surroundings (StateT (List Text) (StateM τ)) (List Text × τ) where
  host := terminalHost t level settings
  device := .queued io
  eval act v := ((act v.1 v.2).1.1, (act v.1 v.2).1.2, (act v.1 v.2).2)
  goesOn s _ := settings.limit.all (s.executed < ·)
  asked _ v := v
  piece v :=
    match v with
    | (input :: _, _) => some input
    | ([], v) => (io.read v).1
  took v :=
    match v with
    | (_ :: queue, v) => (queue, v)
    | ([], v) => ([], (io.read v).2)
  wrote value v := (v.1, (io.write value v.2).2)
  eval_pure _ _ := rfl
  eval_bind _ _ _ := rfl
  eval_mayGoOn s v := by
    by_cases slow : settings.delay.getD 0 ≠ 0
    · have waited := quiet.wait (settings.delay.getD 0) v.2
      simp only [terminalHost, if_pos slow]
      show ((settings.limit.all (s.executed < ·), s), v.1, (t.wait _ v.2).2) = _
      rw [waited]
    · simp only [terminalHost, if_neg slow]
      rfl
  eval_note notes v := by
    have noted : t.note level notes v.2 = ((), v.2) :=
      forM_apply (fun note => quiet.log (noteEntry note)) _ v.2
    show ((t.note level notes v.2).1, v.1, (t.note level notes v.2).2) = ((), v)
    rw [noted]
  eval_read v := by
    obtain ⟨_ | ⟨input, queue⟩, v⟩ := v
    · rfl
    · rfl
  eval_write _ _ := rfl

variable {p : Parties} {t : Terminal (StateM τ)} {quiet : Quiet t} {io : Device (StateM τ)}
  {channel : τ → Channel} {good : τ → Prop} {level : Level} {settings : Settings}
  {pieces before queue queue' : List Text} {v v' : τ} {c c' : Console} {turns tries : Nat}
  {s : Session} {outcome : Outcome}

theorem eval_queued {α : Type} {act : StateT (List Text) (StateM τ) α} {a : α} :
    (queuedSurroundings quiet level settings io).eval act (queue, v) = (a, queue', v') ↔
      act.run queue v = ((a, queue'), v') := by
  show (((act.run queue v).1.1, (act.run queue v).1.2, (act.run queue v).2) = _) ↔ _
  rcases act.run queue v with ⟨⟨a₁, queue₁⟩, v₁⟩
  constructor
  · intro same
    cases same
    rfl
  · intro same
    cases same
    rfl

/-- The device has brought what is no longer left on the terminal, and was given the values of the
lines that were added there. -/
structure Carries (p : Parties) (channel : τ → Channel) (good : τ → Prop)
    (pieces before : List Text) (w : List Text × Console) (v : List Text × τ) : Prop where
  queue : v.1 = w.1
  ready : good v.2
  history : ∃ h : History, h.channel = channel v.2 ∧ h.Kept p ∧
    w.2.pieces = pieces.drop h.answers.length ∧ w.2.lines = before ++ h.written.map Word.text

theorem follows_through (serves : Serves p io channel good) (source : p.Has pieces) :
    Follows (surroundings level settings) (queuedSurroundings quiet level settings io) true
      (Carries p channel good pieces before) where
  goesOn s related := rfl
  asked s related := related
  piece {w v} _ related := by
    obtain ⟨queue, c⟩ := w
    obtain ⟨queue', v⟩ := v
    obtain ⟨rfl, ready, h, fits, kept, left, -⟩ := related
    cases queue' with
    | cons input rest => rfl
    -- The command line has no more inputs, so the device is read.
    | nil =>
      replace left : c.pieces = _ := left
      show (io.read v).1 = c.pieces.head?
      rw [(kept.read serves source fits ready).1, left, List.head?_drop]
  took {w v} _ related := by
    obtain ⟨queue, c⟩ := w
    obtain ⟨queue', v⟩ := v
    obtain ⟨rfl, ready, h, fits, kept, left, lines⟩ := related
    cases queue' with
    | cons input rest => exact ⟨rfl, ready, h, fits, kept, left, lines⟩
    | nil =>
      obtain ⟨-, stays, after⟩ := kept.read serves source fits ready
      replace left : c.pieces = _ := left
      refine ⟨rfl, stays, _, rfl, after, ?_, lines⟩
      show c.pieces.tail = _
      rw [left, List.tail_drop, List.length_append]
      rfl
  wrote {w v} _ value related := by
    obtain ⟨same, ready, h, fits, kept, left, lines⟩ := related
    obtain ⟨stays, after⟩ := kept.write serves fits ready value
    refine ⟨same, stays, _, rfl, after, left, ?_⟩
    show w.2.lines ++ [value.text] = _
    rw [lines, List.map_append, List.append_assoc]
    rfl

/-! ## The run -/

/-- A program that is run on a terminal comes to the same end, with the same inputs left of the
command line, when the user is reached through a channel; and the channel hands on the lines. -/
theorem runOn_through (serves : Serves p io channel good) (source : p.Has c.pieces)
    (quiet : Quiet t) (ready : good v) (fresh : channel v = {})
    (ended : (runOn (terminalHost terminal level settings) (terminalDevice terminal) turns tries
      s).run queue c = ((some outcome, queue'), c')) :
    ∃ v' least, good v' ∧
      (∀ enough, least ≤ enough →
        (runOver t level settings io enough tries s).run queue v =
          ((some outcome, queue'), v')) ∧
      ∃ h : History, h.channel = channel v' ∧ h.HandsOn p ∧
        c'.lines = c.lines ++ h.written.map Word.text := by
  have along : Follows (surroundings level settings) (queuedSurroundings quiet level settings io)
      true (Carries p channel good c.pieces c.lines) := follows_through serves source
  have start : Carries p channel good c.pieces c.lines (queue, c) (queue, v) :=
    ⟨rfl, ready, {}, fresh.symm, History.kept_start p, rfl, by simp⟩
  obtain ⟨⟨queue₁, v'⟩, least, related, ran⟩ := along.runOn (eval_eq ended) start
  obtain ⟨rfl, stays, h, fits, kept, -, lines⟩ := related
  exact ⟨v', least, stays, fun enough many => eval_queued.1 (ran enough many), h, fits,
    kept.handsOn, lines⟩

/-- In particular, this is so when a run has a channel device for itself. -/
theorem runOn_channel {t : Terminal (StateM Channel)} (source : p.Has c.pieces) (quiet : Quiet t)
    (ended : (runOn (terminalHost terminal level settings) (terminalDevice terminal) turns tries
      s).run queue c = ((some outcome, queue'), c')) :
    ∃ (last : Channel) (least : Nat) (written : List Word),
      (∀ enough, least ≤ enough →
        (runOver t level settings (Channel.device p Host.unnoted) enough tries s).run queue {} =
          ((some outcome, queue'), last)) ∧
      c'.lines = c.lines ++ written.map Word.text ∧ p.Heard written (last.finish p) := by
  obtain ⟨last, least, ⟨idle, -⟩, ran, h, rfl, handsOn, lines⟩ :=
    runOn_through (Channel.serves_device p) source quiet ⟨.inr ⟨rfl, rfl⟩, rfl⟩ rfl ended
  have stopped := Channel.writerStopped_finish p idle
  exact ⟨_, least, h.written, ran, lines, (handsOn [.writer, .writer]).2 stopped⟩

end Queued

end CommandLine
end LittleMan
