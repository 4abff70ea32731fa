import LittleMan.Text.Quoted
import LittleMan.Word

/-!
# Faults

Why the machine refuses an operation.
-/

namespace LittleMan

/-- Why the machine refuses an operation. A refused operation changes nothing. -/
inductive Fault where
  /-- The text that was supplied as input is not a word. -/
  | invalidInput (text : Text)
  /-- Input was supplied though none is awaited, or a step was asked for while it is. -/
  | notReady
  /-- The word at the program counter means no instruction, and the simulation is strict. -/
  | illegalWord (word : Word)
deriving DecidableEq, Repr

namespace Fault

def message : Fault → Text
  | invalidInput text =>
    "invalid input ".toList ++ Text.quoted text ++ ", expected an integer".toList
  | notReady => "machine is not in a state to accept this operation".toList
  | illegalWord word =>
    "simulator executed illegal opcode ".toList ++ word.threeDigits ++ " (strict mode)".toList

def help : Fault → String
  | invalidInput _ => "input must be a decimal integer, such as 42 or -7"
  | notReady => "input can only be supplied after an INP instruction is executed"
  | illegalWord _ =>
    "this word may be data placed in the path of execution; try adding a HLT or BRA before it"

end Fault
end LittleMan
