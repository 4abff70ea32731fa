import LittleMan.Device.Basic
import LittleMan.Note

/-!
# Buffered devices

A device whose input was given beforehand and whose output is collected. Either buffer may be in use
by somebody else for a while: then no input is found, and output is lost.
-/

namespace LittleMan

/-- A device with an input buffer and an output buffer. -/
structure Buffer where
  /-- The pieces of input that were not read yet. -/
  input : List Text := []
  output : Array Word := #[]
  inputInUse : Bool := false
  outputInUse : Bool := false
deriving DecidableEq, Repr

namespace Buffer

def read (b : Buffer) : Option Text × Buffer :=
  if b.inputInUse then (none, b)
  else match b.input with
    | [] => (none, b)
    | piece :: rest => (some piece, { b with input := rest })

/-- Writes a value, or notes that it is lost. -/
def write (value : Word) (b : Buffer) : List Note × Buffer :=
  if b.outputInUse then ([.outputLocked value], b)
  else ([], { b with output := b.output.push value })

/-- A buffer that is part of the state, as a device. -/
def device {m : Type → Type} [Monad m] [MonadStateOf Buffer m] (note : List Note → m Unit) :
    Device m where
  read := modifyGetThe Buffer read
  write value := do note (← modifyGetThe Buffer (write value))

end Buffer
end LittleMan
