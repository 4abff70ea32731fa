import LittleMan.Machine.Basic

/-!
# Moves of a machine

A machine moves by taking a step or by being supplied with the input that it awaits. A list of moves
shows what was put out, what was taken in, and how many words were fetched.
-/

namespace LittleMan.Machine

inductive Move where
  | step (e : Effect)
  /-- The awaited input was this text. -/
  | input (text : Text)

namespace Move

/-- The value that was put out. -/
def output? : Move → Option Word
  | step e => e.output
  | input _ => none

/-- The text that was taken in. -/
def text? : Move → Option Text
  | step _ => none
  | input text => some text

/-- A word was fetched. -/
def fetches : Move → Bool
  | step e => e.fetched.isSome
  | input _ => false

end Move

/-- These moves take the machine from its first state to another. -/
inductive Moves (flags : Flags) (first : Machine) : List Move → Machine → Prop
  | nil : Moves flags first [] first
  | step {moves : List Move} {m next : Machine} {e : Effect} (earlier : Moves flags first moves m)
      (taken : m.step flags = .ok (e, next)) : Moves flags first (moves ++ [.step e]) next
  | input {moves : List Move} {m next : Machine} {text : Text} (earlier : Moves flags first moves m)
      (supplied : m.resume flags text = .ok next) : Moves flags first (moves ++ [.input text]) next

/-- The values that were put out, in order. -/
def outputs (moves : List Move) : List Word := moves.filterMap Move.output?

/-- The texts that were taken in, in order: as many as there were instructions for input that came
to their end. -/
def inputs (moves : List Move) : List Text := moves.filterMap Move.text?

/-- How many words were fetched. -/
def fetches (moves : List Move) : Nat := moves.countP Move.fetches

variable {moves : List Move} {e : Effect} {text : Text}

@[simp] theorem outputs_nil : outputs [] = [] := rfl

@[simp] theorem inputs_nil : inputs [] = [] := rfl

@[simp] theorem fetches_nil : fetches [] = 0 := rfl

@[simp] theorem outputs_step : outputs (moves ++ [.step e]) = outputs moves ++ e.output.toList := by
  cases output : e.output <;> simp [outputs, Move.output?, output]

@[simp] theorem outputs_input : outputs (moves ++ [.input text]) = outputs moves := by
  simp [outputs, Move.output?]

@[simp] theorem inputs_step : inputs (moves ++ [.step e]) = inputs moves := by
  simp [inputs, Move.text?]

@[simp] theorem inputs_input : inputs (moves ++ [.input text]) = inputs moves ++ [text] := by
  simp [inputs, Move.text?]

@[simp] theorem fetches_step :
    fetches (moves ++ [.step e]) = fetches moves + if e.fetched.isSome then 1 else 0 := by
  cases fetched : e.fetched <;> simp [fetches, Move.fetches, fetched]

@[simp] theorem fetches_input : fetches (moves ++ [.input text]) = fetches moves := by
  simp [fetches, Move.fetches]

end LittleMan.Machine
