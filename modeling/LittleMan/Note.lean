import LittleMan.Instruction
import LittleMan.Text.Quoted

/-!
# Notes

What the program remarks on while it works, for the log. Each note is kept as its cause; its
wording, how much it matters, and the part of the program that it is reported under follow from the
cause.
-/

namespace LittleMan

/-- How much a note matters, the most first. -/
inductive Level where
  | warn
  | debug
  | trace
deriving DecidableEq, Repr

namespace Level

def name : Level → String
  | warn => "WARN"
  | debug => "DEBUG"
  | trace => "TRACE"

def rank : Level → Nat
  | warn => 0
  | debug => 1
  | trace => 2

/-- A log that shows notes up to a level shows this one. -/
def shows (limit level : Level) : Bool := level.rank ≤ limit.rank

end Level

inductive Note where
  /-- Words after an operand are not assembled. -/
  | wordsIgnored (count : Nat) (instruction : Text)
  | statementsRead (count : Nat)
  | labelRedefined (label : Text) (earlier later : Nat)
  | labelBound (label : Text) (address : Nat)
  /-- An operand is neither a label nor an integer. -/
  | operandUnresolved (operand : Text)
  | wordAssembled (address : Nat) (word : Word) (statement : Text)
  | statementsDropped (count : Nat)
  | programAssembled (count : Nat)
  | programLoaded (count : Nat)
  | ranOff (pc : Nat)
  | inputAwaited (address : Nat)
  | inputReceived (value : Word)
  | inputExhausted
  | haltReached (address : Nat)
  /-- A word that means no instruction was passed over. -/
  | wordSkipped (address : Nat) (word : Word)
  /-- A word was fetched and executed, with the registers after it. -/
  | wordExecuted (address : Nat) (word : Word) (instruction : Option Instruction) (acc : Word)
      (pc : Nat)
  /-- An output was lost because its buffer was in use. -/
  | outputLocked (value : Word)
  /-- An output was lost because nobody takes outputs any more. -/
  | outputClosed (value : Word)
  /-- A token is not a number, and the next one is tried. -/
  | tokenIgnored (token : Text)
  | runFinished (count : Nat)
deriving DecidableEq, Repr

namespace Note

/-- The part of the program that a note is reported under. -/
def origin : Note → String
  | wordsIgnored .. | statementsRead .. => "lmc_ensemble::parse"
  | labelRedefined .. | labelBound .. | operandUnresolved .. | wordAssembled ..
  | statementsDropped .. | programAssembled .. => "lmc_ensemble::asm"
  | programLoaded .. | inputExhausted => "lmc_ensemble::sim"
  | ranOff .. | inputAwaited .. | inputReceived .. | haltReached .. | wordSkipped ..
  | wordExecuted .. => "lmc_ensemble::sim::state"
  | outputLocked .. | outputClosed .. => "lmc_ensemble::sim::io"
  | tokenIgnored .. | runFinished .. => "lmc"

def level : Note → Level
  | labelRedefined .. | operandUnresolved .. | statementsDropped .. | wordSkipped ..
  | outputLocked .. | outputClosed .. | tokenIgnored .. => .warn
  | statementsRead .. | labelBound .. | programAssembled .. | programLoaded .. | ranOff ..
  | inputAwaited .. | inputReceived .. | inputExhausted | haltReached .. | runFinished .. => .debug
  | wordsIgnored .. | wordAssembled .. | wordExecuted .. => .trace

def message : Note → Text
  | wordsIgnored count instruction =>
    s!"ignoring {count} extra word(s) after ".toList ++ instruction
  | statementsRead count => s!"parsed {count} statement(s)".toList
  | labelRedefined label earlier later =>
    "label ".toList ++ label ++ s!" redefined (address {earlier} -> {later})".toList
  | labelBound label address =>
    "bound label ".toList ++ label ++ s!" to address {address}".toList
  | operandUnresolved operand =>
    "operand ".toList ++ operand ++ " is not a label or an integer, assembling as 0".toList
  | wordAssembled address word statement =>
    addressText address ++ ": ".toList ++ word.threeDigits ++ " (".toList ++ statement ++ [')']
  | statementsDropped count =>
    s!"program does not fit in memory, dropped {count} statement(s)".toList
  | programAssembled count => s!"assembled {count} word(s)".toList
  | programLoaded count => s!"loaded object file with {count} statement(s)".toList
  | ranOff pc => s!"pc ran off the end of memory ({pc}), halting".toList
  | inputAwaited address => "waiting for input at ".toList ++ addressText address
  | inputReceived value => "received input ".toList ++ value.text
  | inputExhausted => "no more input, pausing".toList
  | haltReached address => "halted at ".toList ++ addressText address
  | wordSkipped address word =>
    "word ".toList ++ word.threeDigits ++ " at ".toList ++ addressText address ++
      " is not an instruction, skipping".toList
  | wordExecuted address word instruction acc pc =>
    addressText address ++ ": ".toList ++ word.threeDigits ++ [' '] ++
      (match instruction with
        | some i => i.text
        | none => "?     ".toList) ++
      " | acc = ".toList ++ acc.text ++ s!", pc = {pc}".toList
  | outputLocked value => "output buffer is locked, dropping output ".toList ++ value.text
  | outputClosed value => "output channel closed, dropping output ".toList ++ value.text
  | tokenIgnored token =>
    "ignoring input ".toList ++ Text.quoted token ++ ", expected an integer".toList
  | runFinished count => s!"halted after {count} instruction(s)".toList

end Note
end LittleMan
