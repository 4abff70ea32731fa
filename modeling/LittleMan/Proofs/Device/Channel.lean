import LittleMan.Device.Channel
import Mathlib.Data.List.Basic
import Mathlib.Data.List.Infix

/-!
# What a channel device keeps

Nothing that goes through a channel device is lost under way, because of two invariants. The pieces
that were read, wait for the run, or are held by the reader are those that the source brought
(`Reads`). The values that were given to the target, are held by the writer, or wait for it are
those that were written (`Writes`). A turn and a call change one side of the device and leave the
other as it is, so each invariant is shown for what happens on its own side.
-/

namespace LittleMan

namespace Parties

variable {p : Parties} {pieces more : List Text} {piece : Text} {given written : List Word}
  {value : Word}

/-- The source answers with these pieces first, in this order. -/
def Brings (p : Parties) (pieces : List Text) : Prop :=
  ∀ (k : Nat) (piece : Text), pieces[k]? = some piece → p.source k = some piece

theorem brings_nil : p.Brings [] := by
  intro k piece found
  simp at found

theorem Brings.of_append (brings : p.Brings (pieces ++ more)) : p.Brings pieces := by
  intro k piece found
  have inside : k < pieces.length := (List.getElem?_eq_some_iff.1 found).1
  exact brings k piece ((List.getElem?_append_left inside).trans found)

theorem Brings.concat (brings : p.Brings pieces) (next : p.source pieces.length = some piece) :
    p.Brings (pieces ++ [piece]) := by
  intro k piece' found
  rcases Nat.lt_trichotomy k pieces.length with before | rfl | after
  · rw [List.getElem?_append_left before] at found
    exact brings k piece' found
  · simpa [next] using found
  · have beyond : (pieces ++ [piece]).length ≤ k := by simp; omega
    rw [List.getElem?_eq_none beyond] at found
    cases found

/-- After each of these values but the last, the target went on. -/
def WentOn (p : Parties) (given : List Word) : Prop :=
  ∀ earlier, earlier ≠ [] → earlier <+: given → earlier ≠ given → p.refuses earlier = false

theorem wentOn_nil : p.WentOn [] := by
  intro earlier some before
  exact absurd (List.prefix_nil.1 before) some

theorem WentOn.concat (wentOn : p.WentOn given) (last : given ≠ [] → p.refuses given = false) :
    p.WentOn (given ++ [value]) := by
  intro earlier some before shorter
  rcases List.prefix_concat_iff.1 before with all | before
  · exact absurd all shorter
  · by_cases same : earlier = given
    · exact same ▸ last (same ▸ some)
    · exact wentOn earlier some before same

/-- Of the values that were written, the target was given all if it always went on, and else those up
to the first after which it refused to. -/
structure Heard (p : Parties) (written given : List Word) : Prop where
  inOrder : given <+: written
  wentOn : p.WentOn given
  all : given = written ∨ (given ≠ [] ∧ p.refuses given = true)

end Parties

namespace Channel

variable {p : Parties} {c c' : Channel} {received : List Text} {ends : Nat}
  {answers : List (Option Text)} {answer : Option Text} {written : List Word} {value : Word}

/-! ## What a turn does -/

/-- What a turn of the reader does. -/
inductive ReaderTurn (p : Parties) (c : Channel) : Channel → Prop
  | idle (stopped : c.readerStopped = true) : ReaderTurn p c c
  /-- Nobody will read the piece that the reader holds. -/
  | lost {piece : Text} (runs : c.readerStopped = false) (held : c.fetched = some piece)
      (shut : c.closed = true) :
      ReaderTurn p c { c with fetched := none, readerStopped := true }
  | waiting {piece : Text} (runs : c.readerStopped = false) (held : c.fetched = some piece)
      (isOpen : c.closed = false) (full : c.inbox.isSome = true) : ReaderTurn p c c
  | passed {piece : Text} (runs : c.readerStopped = false) (held : c.fetched = some piece)
      (isOpen : c.closed = false) (free : c.inbox = none) :
      ReaderTurn p c { c with inbox := some piece, fetched := none }
  | fetched {piece : Text} (runs : c.readerStopped = false) (held : c.fetched = none)
      (answered : p.source c.asked = some piece) :
      ReaderTurn p c { c with asked := c.asked + 1, fetched := some piece }
  | stopped (runs : c.readerStopped = false) (held : c.fetched = none)
      (answered : p.source c.asked = none) :
      ReaderTurn p c { c with asked := c.asked + 1, readerStopped := true }

/-- What a turn of the writer does. -/
inductive WriterTurn (p : Parties) (c : Channel) : Channel → Prop
  | idle (stopped : c.writerStopped = true) : WriterTurn p c c
  | gave {value : Word} (runs : c.writerStopped = false) (held : c.taken = some value) :
      WriterTurn p c
        { c with
          taken := none
          given := c.given ++ [value]
          writerStopped := p.refuses (c.given ++ [value]) }
  | took {value : Word} (runs : c.writerStopped = false) (held : c.taken = none)
      (waits : c.outbox = some value) :
      WriterTurn p c { c with outbox := none, taken := some value }
  /-- Nothing waits, and once the device is closed nothing will. -/
  | looked (runs : c.writerStopped = false) (held : c.taken = none) (empty : c.outbox = none) :
      WriterTurn p c { c with writerStopped := c.closed }

theorem readerTurn_taken (p : Parties) (c : Channel) : ReaderTurn p c (c.readerTurn p) := by
  unfold readerTurn
  split
  next stopped => exact .idle stopped
  next runs =>
    have runs : c.readerStopped = false := by simpa using runs
    split
    next piece held =>
      split
      next shut => exact .lost runs held shut
      next isOpen =>
        have isOpen : c.closed = false := by simpa using isOpen
        split
        next full => exact .waiting runs held isOpen full
        next free => exact .passed runs held isOpen (by simpa using free)
    next held =>
      split
      next piece answered => exact .fetched runs held answered
      next answered => exact .stopped runs held answered

theorem writerTurn_taken (p : Parties) (c : Channel) : WriterTurn p c (c.writerTurn p) := by
  unfold writerTurn
  split
  next stopped => exact .idle stopped
  next runs =>
    have runs : c.writerStopped = false := by simpa using runs
    split
    next value held => exact .gave runs held
    next held =>
      split
      next value waits => exact .took runs held waits
      next empty => exact .looked runs held empty

theorem receive?_eq_some (got : c.receive? = some (answer, c')) :
    (∃ piece, c.inbox = some piece ∧ answer = some piece ∧ c' = { c with inbox := none }) ∨
      (c.inbox = none ∧ c.readerStopped = true ∧ answer = none ∧ c' = c) := by
  unfold receive? at got
  split at got
  next piece waits =>
    cases got
    exact .inl ⟨piece, waits, rfl, rfl⟩
  next empty =>
    split at got
    next stopped =>
      cases got
      exact .inr ⟨empty, stopped, rfl, rfl⟩
    next => cases got

theorem send?_eq_some {heeded : Bool} (sent : c.send? value = some (heeded, c')) :
    (c.writerStopped = true ∧ c' = c) ∨
      (c.writerStopped = false ∧ c.outbox = none ∧ c' = { c with outbox := some value }) := by
  unfold send? at sent
  split at sent
  next stopped =>
    cases sent
    exact .inl ⟨stopped, rfl⟩
  next runs =>
    split at sent
    next => cases sent
    next free =>
      cases sent
      exact .inr ⟨by simpa using runs, by simpa using free, rfl⟩

/-! ## The two sides of a device -/

/-- The reader's side of the device is the same. -/
structure SameReader (c c' : Channel) : Prop where
  asked : c'.asked = c.asked
  fetched : c'.fetched = c.fetched
  readerStopped : c'.readerStopped = c.readerStopped
  inbox : c'.inbox = c.inbox
  closed : c'.closed = c.closed

/-- The writer's side of the device is the same. -/
structure SameWriter (c c' : Channel) : Prop where
  outbox : c'.outbox = c.outbox
  taken : c'.taken = c.taken
  writerStopped : c'.writerStopped = c.writerStopped
  given : c'.given = c.given
  closed : c'.closed = c.closed

theorem ReaderTurn.sameWriter (turn : ReaderTurn p c c') : SameWriter c c' := by
  cases turn <;> exact ⟨rfl, rfl, rfl, rfl, rfl⟩

theorem WriterTurn.sameReader (turn : WriterTurn p c c') : SameReader c c' := by
  cases turn <;> exact ⟨rfl, rfl, rfl, rfl, rfl⟩

theorem sameWriter_receive (got : c.receive? = some (answer, c')) : SameWriter c c' := by
  rcases receive?_eq_some got with ⟨piece, -, -, rfl⟩ | ⟨-, -, -, rfl⟩ <;>
    exact ⟨rfl, rfl, rfl, rfl, rfl⟩

theorem sameReader_send {heeded : Bool} (sent : c.send? value = some (heeded, c')) :
    SameReader c c' := by
  rcases send?_eq_some sent with ⟨-, rfl⟩ | ⟨-, -, rfl⟩ <;> exact ⟨rfl, rfl, rfl, rfl, rfl⟩

/-! ## What the run reads -/

/-- The pieces that were received, and those on their way to the run. -/
def pieces (received : List Text) (c : Channel) : List Text :=
  received ++ c.inbox.toList ++ c.fetched.toList

/-- The run received pieces, and was then told that there are no more. The source brought what it
received, and while the device is open, what is on its way. -/
structure Reads (p : Parties) (answers : List (Option Text)) (received : List Text) (ends : Nat)
    (c : Channel) : Prop where
  answers_eq : answers = received.map some ++ List.replicate ends none
  brings : p.Brings received
  underWay (isOpen : c.closed = false) : p.Brings (c.pieces received)
  asked (isOpen : c.closed = false) (runs : c.readerStopped = false) :
    c.asked = (c.pieces received).length
  exhausted (isOpen : c.closed = false) (stopped : c.readerStopped = true) :
    c.fetched = none ∧ p.source (c.pieces received).length = none
  ended (told : ends ≠ 0) :
    c.readerStopped = true ∧ c.inbox = none ∧ p.source received.length = none

theorem reads_start (p : Parties) : Reads p [] [] 0 {} where
  answers_eq := rfl
  brings := Parties.brings_nil
  underWay _ := Parties.brings_nil
  asked _ _ := rfl
  exhausted _ stopped := by cases stopped
  ended told := absurd rfl told

theorem Reads.of_same (reads : Reads p answers received ends c) (same : SameReader c c') :
    Reads p answers received ends c' := by
  have pieces_eq : c'.pieces received = c.pieces received := by
    simp [pieces, same.inbox, same.fetched]
  constructor
  · exact reads.answers_eq
  · exact reads.brings
  · rw [same.closed, pieces_eq]
    exact reads.underWay
  · rw [same.closed, same.readerStopped, same.asked, pieces_eq]
    exact reads.asked
  · rw [same.closed, same.readerStopped, same.fetched, pieces_eq]
    exact reads.exhausted
  · rw [same.readerStopped, same.inbox]
    exact reads.ended

section Turn
variable (reads : Reads p answers received ends c)
include reads

theorem Reads.untold (runs : c.readerStopped = false) : ends = 0 := by
  by_contra told
  cases runs.symm.trans (reads.ended told).1

/-- A device that is closed may lose the piece that its reader holds. -/
theorem Reads.lost (runs : c.readerStopped = false) (shut : c.closed = true) :
    Reads p answers received ends { c with fetched := none, readerStopped := true } where
  answers_eq := reads.answers_eq
  brings := reads.brings
  underWay isOpen := by cases shut.symm.trans isOpen
  asked isOpen := by cases shut.symm.trans isOpen
  exhausted isOpen := by cases shut.symm.trans isOpen
  ended told := absurd (reads.untold runs) told

theorem Reads.passed {piece : Text} (runs : c.readerStopped = false)
    (held : c.fetched = some piece) (free : c.inbox = none) :
    Reads p answers received ends { c with inbox := some piece, fetched := none } := by
  have same : pieces received { c with inbox := some piece, fetched := none } =
      c.pieces received := by
    simp [pieces, held, free]
  constructor
  · exact reads.answers_eq
  · exact reads.brings
  · intro isOpen
    exact same ▸ reads.underWay isOpen
  · intro isOpen runs
    exact same ▸ reads.asked isOpen runs
  · intro isOpen stopped
    cases runs.symm.trans stopped
  · intro told
    exact absurd (reads.untold runs) told

theorem Reads.fetched {piece : Text} (runs : c.readerStopped = false) (held : c.fetched = none)
    (answered : p.source c.asked = some piece) :
    Reads p answers received ends { c with asked := c.asked + 1, fetched := some piece } := by
  have more : pieces received { c with asked := c.asked + 1, fetched := some piece } =
      c.pieces received ++ [piece] := by
    simp [pieces, held]
  constructor
  · exact reads.answers_eq
  · exact reads.brings
  · intro isOpen
    rw [reads.asked isOpen runs] at answered
    rw [more]
    exact (reads.underWay isOpen).concat answered
  · intro isOpen runs
    rw [more, List.length_append]
    exact congrArg (· + 1) (reads.asked isOpen runs)
  · intro isOpen stopped
    cases runs.symm.trans stopped
  · intro told
    exact absurd (reads.untold runs) told

theorem Reads.stopped (runs : c.readerStopped = false) (held : c.fetched = none)
    (answered : p.source c.asked = none) :
    Reads p answers received ends { c with asked := c.asked + 1, readerStopped := true } where
  answers_eq := reads.answers_eq
  brings := reads.brings
  underWay := reads.underWay
  asked _ stays := by cases stays
  exhausted isOpen _ := ⟨held, reads.asked isOpen runs ▸ answered⟩
  ended told := absurd (reads.untold runs) told

theorem Reads.readerTurn (turn : ReaderTurn p c c') : Reads p answers received ends c' := by
  cases turn with
  | idle | waiting => exact reads
  | lost runs held shut => exact reads.lost runs shut
  | passed runs held isOpen free => exact reads.passed runs held free
  | fetched runs held answered => exact reads.fetched runs held answered
  | stopped runs held answered => exact reads.stopped runs held answered

end Turn

/-- What a run gets is the next piece, or that there are no more. -/
theorem Reads.receive (reads : Reads p answers received ends c) (isOpen : c.closed = false)
    (got : c.receive? = some (answer, c')) :
    ∃ received ends, Reads p (answers ++ [answer]) received ends c' := by
  rcases receive?_eq_some got with ⟨piece, waits, rfl, rfl⟩ | ⟨empty, stopped, rfl, rfl⟩
  · have untold : ends = 0 := by
      by_contra told
      cases waits.symm.trans (reads.ended told).2.1
    have same : pieces (received ++ [piece]) { c with inbox := none } = c.pieces received := by
      simp [pieces, waits]
    have next : p.Brings (received ++ [piece]) := by
      have underWay := reads.underWay isOpen
      rw [pieces, waits] at underWay
      exact underWay.of_append
    refine ⟨received ++ [piece], 0, ?_, next, ?_, ?_, ?_, fun told => absurd rfl told⟩
    · simp [reads.answers_eq, untold]
    · intro isOpen
      exact same ▸ reads.underWay isOpen
    · intro isOpen runs
      exact same ▸ reads.asked isOpen runs
    · intro isOpen stopped
      exact same ▸ reads.exhausted isOpen stopped
  · obtain ⟨held, no⟩ := reads.exhausted isOpen stopped
    have all : c'.pieces received = received := by simp [pieces, empty, held]
    rw [all] at no
    refine ⟨received, ends + 1, { reads with answers_eq := ?_, ended := ?_ }⟩
    · rw [reads.answers_eq, List.append_assoc, List.replicate_succ']
    · intro _
      exact ⟨stopped, empty, no⟩

theorem Reads.close (reads : Reads p answers received ends c) :
    Reads p answers received ends c.close where
  answers_eq := reads.answers_eq
  brings := reads.brings
  underWay isOpen := by cases isOpen
  asked isOpen := by cases isOpen
  exhausted isOpen := by cases isOpen
  ended told := ⟨(reads.ended told).1, rfl, (reads.ended told).2.2⟩

/-! ## What the target is given -/

/-- While the writer runs, the values that were given, held by it, or wait for it are those that were
written, and the target went on after each. When it has stopped, the target refused to go on, or the
device was closed and nothing was left. -/
structure Writes (p : Parties) (written : List Word) (c : Channel) : Prop where
  wentOn : p.WentOn c.given
  going (runs : c.writerStopped = false) :
    written = c.given ++ c.taken.toList ++ c.outbox.toList ∧
      (c.given ≠ [] → p.refuses c.given = false)
  stopped (stopped : c.writerStopped = true) :
    (c.given <+: written ∧ c.given ≠ [] ∧ p.refuses c.given = true) ∨
      (c.closed = true ∧ c.given = written)

theorem writes_start (p : Parties) : Writes p [] {} where
  wentOn := Parties.wentOn_nil
  going _ := ⟨rfl, fun some => absurd rfl some⟩
  stopped stopped := by cases stopped

theorem Writes.of_same (writes : Writes p written c) (same : SameWriter c c') :
    Writes p written c' := by
  constructor
  · rw [same.given]
    exact writes.wentOn
  · rw [same.writerStopped, same.given, same.taken, same.outbox]
    exact writes.going
  · rw [same.writerStopped, same.given, same.closed]
    exact writes.stopped

theorem Writes.writerTurn (writes : Writes p written c) (turn : WriterTurn p c c') :
    Writes p written c' := by
  cases turn with
  | idle => exact writes
  | gave runs held =>
    obtain ⟨all, last⟩ := writes.going runs
    refine ⟨writes.wentOn.concat last, ?_, ?_⟩
    · intro goesOn
      exact ⟨by simp [all, held], fun _ => goesOn⟩
    · intro refused
      exact .inl ⟨by simp [all, held], by simp, refused⟩
  | took runs held waits =>
    obtain ⟨all, last⟩ := writes.going runs
    refine ⟨writes.wentOn, ?_, ?_⟩
    · intro _
      exact ⟨by simp [all, held, waits], last⟩
    · intro stopped
      cases runs.symm.trans stopped
  | looked runs held empty =>
    obtain ⟨all, last⟩ := writes.going runs
    refine ⟨writes.wentOn, ?_, ?_⟩
    · intro _
      exact ⟨by simp [all, held, empty], last⟩
    · intro shut
      exact .inr ⟨shut, by simp [all, held, empty]⟩

theorem Writes.send {heeded : Bool} (writes : Writes p written c) (isOpen : c.closed = false)
    (sent : c.send? value = some (heeded, c')) : Writes p (written ++ [value]) c' := by
  rcases send?_eq_some sent with ⟨stopped, rfl⟩ | ⟨runs, free, rfl⟩
  · refine ⟨writes.wentOn, fun runs => ?_, fun _ => ?_⟩
    · cases runs.symm.trans stopped
    · rcases writes.stopped stopped with ⟨inOrder, refused⟩ | ⟨shut, -⟩
      · exact .inl ⟨inOrder.trans (List.prefix_append written [value]), refused⟩
      · cases isOpen.symm.trans shut
  · obtain ⟨all, last⟩ := writes.going runs
    refine ⟨writes.wentOn, fun _ => ⟨?_, last⟩, fun stopped => ?_⟩
    · simp [all, free]
    · cases runs.symm.trans stopped

theorem Writes.close (writes : Writes p written c) : Writes p written c.close where
  wentOn := writes.wentOn
  going := writes.going
  stopped stopped := (writes.stopped stopped).imp_right fun ⟨_, all⟩ => ⟨rfl, all⟩

/-- When the writer has stopped, the target was given what it was to be given. -/
theorem Writes.heard (writes : Writes p written c) (stopped : c.writerStopped = true) :
    p.Heard written c.given := by
  rcases writes.stopped stopped with ⟨inOrder, refused⟩ | ⟨-, all⟩
  · exact ⟨inOrder, writes.wentOn, .inr refused⟩
  · exact ⟨by simp [all], writes.wentOn, .inl all⟩

/-! ## When nothing more comes -/

/-- The reader has stopped and nothing waits for the run. -/
def Spent (c : Channel) : Prop := c.readerStopped = true ∧ c.inbox = none

theorem Spent.receive? (spent : c.Spent) : c.receive? = some (none, c) := by
  simp [Channel.receive?, spent.1, spent.2]

theorem Spent.of_same (spent : c.Spent) (same : SameReader c c') : c'.Spent :=
  ⟨same.readerStopped.trans spent.1, same.inbox.trans spent.2⟩

/-! ## When the writer stops -/

/-- How many turns the writer of a closed device needs at most to stop. -/
def writerTurnsLeft (c : Channel) : Nat :=
  if c.writerStopped then 0
  else 1 + (if c.taken.isSome then 1 else 0) + if c.outbox.isSome then 2 else 0

theorem writerTurnsLeft_le (c : Channel) : c.writerTurnsLeft ≤ 4 := by
  unfold writerTurnsLeft
  split
  · exact Nat.zero_le 4
  · split <;> split <;> decide

theorem writerStopped_of_writerTurnsLeft (none : c.writerTurnsLeft = 0) :
    c.writerStopped = true := by
  by_contra runs
  simp [writerTurnsLeft, runs] at none

theorem writerTurnsLeft_of_same (same : SameWriter c c') :
    c'.writerTurnsLeft = c.writerTurnsLeft := by
  simp [writerTurnsLeft, same.writerStopped, same.taken, same.outbox]

theorem WriterTurn.turnsLeft (turn : WriterTurn p c c') (shut : c.closed = true) :
    c'.writerTurnsLeft ≤ c.writerTurnsLeft - 1 := by
  cases turn with
  | idle stopped => simp [writerTurnsLeft, stopped]
  | gave runs held =>
    simp only [writerTurnsLeft, runs, held]
    split <;> simp
  | took runs held waits => simp [writerTurnsLeft, runs, held, waits]
  | looked runs held empty => simp [writerTurnsLeft, runs, held, empty, shut]

end Channel
end LittleMan
