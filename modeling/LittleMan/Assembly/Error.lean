import LittleMan.Mnemonic
import LittleMan.Source.Span

/-!
# Assembly errors

Why a program is refused, and where.
-/

namespace LittleMan.Assembly

/-- Why a program is refused. All but the first are refused in strict assembly only. -/
inductive Problem where
  /-- The instruction is no mnemonic. Its name is kept in upper case. -/
  | unknownInstruction (name : Text)
  | capacityExceeded
  /-- The operand is neither a label nor an integer. -/
  | invalidOperand
  /-- The operand is no address, or too large for data. -/
  | operandOutOfRange
  | missingOperand
  | duplicateLabel
deriving DecidableEq, Repr

namespace Problem

def message : Problem → Text
  | unknownInstruction name => "unknown instruction: ".toList ++ name
  | capacityExceeded => "program does not fit in 100 memory cells".toList
  | invalidOperand => "operand is not a label or an integer".toList
  | operandOutOfRange => "operand is out of range".toList
  | missingOperand => "instruction is missing an operand".toList
  | duplicateLabel => "label was defined multiple times".toList

def help : Problem → String
  | unknownInstruction _ =>
    "valid instructions are " ++ ", ".intercalate (Mnemonic.all.map Mnemonic.name)
  | capacityExceeded => "each instruction and DAT takes one cell; try shortening the program"
  | invalidOperand => "check the spelling of this label (labels are case-sensitive)"
  | operandOutOfRange =>
    "addresses must be between 0 and 99, and DAT values between -999 and 999"
  | missingOperand => "try adding an address or label after this instruction"
  | duplicateLabel => "labels must be unique within a file, try renaming one of the labels"

end Problem

/-- Why a program is refused, and the places in its source that are to blame. -/
structure Error where
  problem : Problem
  places : Places
deriving DecidableEq, Repr

end LittleMan.Assembly
