import LittleMan.Device.Basic
import LittleMan.Note

/-!
# Channel devices

A device between a run and two parties that work on their own. A reader fetches pieces of input
ahead of the run, a writer hands on the values that were written, and each is joined to the run by a
channel that holds one item. The parties take turns in any order; a turn of a party that cannot act
changes nothing.

The reader stops for good when its source has nothing more, the writer when its target refuses or
when the device is closed and nothing is left to hand on.
-/

namespace LittleMan

/-- The two parties that a device connects. -/
structure Parties where
  /-- What the reader's source answers when it is asked for the `k`-th time. -/
  source : Nat → Option Text
  /-- The target refuses to go on after it was given these values. -/
  refuses : List Word → Bool

structure Channel where
  /-- How often the reader asked its source. -/
  asked : Nat := 0
  /-- What the reader has fetched and not yet passed on. -/
  fetched : Option Text := none
  readerStopped : Bool := false
  /-- The piece of input that waits for the run. -/
  inbox : Option Text := none
  /-- The value that waits for the writer. -/
  outbox : Option Word := none
  /-- What the writer has taken and not yet handed on. -/
  taken : Option Word := none
  writerStopped : Bool := false
  /-- The values that the target was given. -/
  given : List Word := []
  closed : Bool := false
deriving DecidableEq, Repr

namespace Channel

/-- A turn of the reader: it passes on what it has fetched when there is room, or fetches more. -/
def readerTurn (p : Parties) (c : Channel) : Channel :=
  if c.readerStopped then c
  else match c.fetched with
    | some piece =>
      if c.closed then { c with fetched := none, readerStopped := true }
      else if c.inbox.isSome then c
      else { c with inbox := some piece, fetched := none }
    | none =>
      match p.source c.asked with
      | some piece => { c with asked := c.asked + 1, fetched := some piece }
      | none => { c with asked := c.asked + 1, readerStopped := true }

/-- A turn of the writer: it hands on what it has taken, or takes what waits. -/
def writerTurn (p : Parties) (c : Channel) : Channel :=
  if c.writerStopped then c
  else match c.taken with
    | some value =>
      let given := c.given ++ [value]
      { c with taken := none, given, writerStopped := p.refuses given }
    | none =>
      match c.outbox with
      | some value => { c with outbox := none, taken := some value }
      | none => { c with writerStopped := c.closed }

/-- The run takes a piece of input, or learns that there will be none. There is no answer while the
reader may still bring one. -/
def receive? (c : Channel) : Option (Option Text × Channel) :=
  match c.inbox with
  | some piece => some (some piece, { c with inbox := none })
  | none => if c.readerStopped then some (none, c) else none

/-- The run writes a value, or learns that nobody takes it. There is no answer while another value
waits for the writer. -/
def send? (value : Word) (c : Channel) : Option (Bool × Channel) :=
  if c.writerStopped then some (false, c)
  else if c.outbox.isSome then none
  else some (true, { c with outbox := some value })

/-- The run gives up its ends of both channels. -/
def close (c : Channel) : Channel := { c with closed := true, inbox := none }

/-- What a run reads when the reader has had its turns. -/
def read (p : Parties) (c : Channel) : Option Text × Channel :=
  let ready := (c.readerTurn p).readerTurn p
  ready.receive?.getD (none, ready)

/-- What comes of a value that a run writes when the writer has its turns right after. -/
def write (p : Parties) (value : Word) (c : Channel) : List Note × Channel :=
  match c.send? value with
  | some (true, sent) => ([], (sent.writerTurn p).writerTurn p)
  | _ => ([.outputClosed value], c)

/-- The values that the target was given when the run is over and the writer has had its turns. -/
def finish (p : Parties) (c : Channel) : List Word :=
  ((c.close.writerTurn p).writerTurn p).given

/-- A channel that is part of the state, as a device. -/
def device {m : Type → Type} [Monad m] [MonadStateOf Channel m] (p : Parties)
    (note : List Note → m Unit) : Device m where
  read := modifyGetThe Channel (read p)
  write value := do note (← modifyGetThe Channel (write p value))

end Channel
end LittleMan
