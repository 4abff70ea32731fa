import LittleMan.Word

/-!
# Devices

A device is where a program's input comes from and where its output goes to.
-/

namespace LittleMan

/-- Where input comes from and output goes to. -/
structure Device (m : Type → Type) where
  /-- The next piece of input, if there is more. -/
  read : m (Option Text)
  write : Word → m Unit

namespace Device

variable {m : Type → Type} [Monad m]

/-- A device that has no input and loses all output. -/
def null : Device m where
  read := return none
  write _ := return ()

/-- The same device after a queue of input, which is read first. -/
def queued (io : Device m) : Device (StateT (List Text) m) where
  read := do
    match ← get with
    | input :: rest =>
      set rest
      return some input
    | [] => io.read
  write value := io.write value

end Device
end LittleMan
