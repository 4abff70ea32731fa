import LittleMan.Machine.Fault
import LittleMan.Memory
import LittleMan.Note
import LittleMan.Policy

/-!
# The machine

The registers and the memory, and what one step does to them. A step fetches the word at the program
counter, moves the counter past it, and executes the instruction that the word means. An instruction
that asks for input leaves the counter where it is until the input arrives.

Every register can be set from outside, so a step is defined on every state.
-/

namespace LittleMan

structure Flags where
  /-- Stop at words that mean no instruction, instead of passing over them. -/
  strict : Bool := false
  /-- How results are fitted into the accumulator. -/
  policy : Policy := .unchecked
deriving DecidableEq, Repr, Inhabited

inductive Status where
  | fetching
  | awaitingInput
  | halted
deriving DecidableEq, Repr

structure Effect where
  /-- The address of the word that was fetched. -/
  fetched : Option Nat := none
  /-- The instruction that the word means. -/
  instruction : Option Instruction := none
  /-- The address whose word was used as a number. -/
  read : Option Nat := none
  /-- The address that was stored to, and whether its word changed. -/
  written : Option (Nat × Bool) := none
  output : Option Word := none
  /-- The address that a branch went to. -/
  branched : Option Nat := none
deriving DecidableEq, Repr, Inhabited

structure Machine where
  memory : Memory
  acc : Word := 0
  /-- The address of the next word to fetch. -/
  pc : UInt8 := 0
  /-- The word that was fetched last. -/
  ir : Word := 0
  /-- The address in the word that was fetched last. -/
  ar : Word := 0
  halted : Bool := false
  /-- An instruction asked for input that has not arrived. -/
  pending : Bool := false
deriving DecidableEq

namespace Machine

/-- A machine that is about to run a memory from its first cell. -/
def ofMemory (memory : Memory) : Machine := { memory }

/-- What the machine is ready for. A halted machine stays halted. -/
def status (m : Machine) : Status :=
  if m.halted then .halted else if m.pending then .awaitingInput else .fetching

/-- The word at the program counter, if the counter is in memory. -/
def word? (m : Machine) : Option Word := m.memory[m.pc.toNat]?

/-- The program counter has left the memory. -/
def ranOff (m : Machine) : Bool := memorySize ≤ m.pc.toNat

/-- A machine whose counter has left the memory is halted. -/
def haltIfRanOff (m : Machine) : Machine := if m.ranOff then { m with halted := true } else m

/-- The machine with a word fetched: the counter is past it, and the registers hold it. -/
def fetch (m : Machine) (word : Word) : Machine :=
  { m with pc := m.pc + 1, ir := word, ar := word.remainder }

def branch (m : Machine) (a : Address) : Machine := { m with pc := UInt8.ofNat a.val }

/-- What an instruction does, once it is fetched. -/
def execute (policy : Policy) (m : Machine) : Instruction → Effect × Machine
  | .add a =>
    ({ read := some a.val }, { m with acc := policy.fit (m.acc.toInt + (m.memory.get a).toInt) })
  | .sub a =>
    ({ read := some a.val }, { m with acc := policy.fit (m.acc.toInt - (m.memory.get a).toInt) })
  | .sta a =>
    ({ written := some (a.val, m.memory.get a != m.acc) },
      { m with memory := m.memory.set a.val m.acc a.isLt })
  | .lda a => ({ read := some a.val }, { m with acc := m.memory.get a })
  | .bra a => ({ branched := some a.val }, m.branch a)
  | .brz a => if m.acc = 0 then ({ branched := some a.val }, m.branch a) else ({}, m)
  | .brp a => if 0 ≤ m.acc.toInt then ({ branched := some a.val }, m.branch a) else ({}, m)
  | .inp => ({}, { m with pc := m.pc - 1, pending := true })
  | .out => ({ output := some m.acc }, m)
  | .hlt => ({}, { m with halted := true })

/-- One step. A halted machine does nothing, and a machine that awaits input refuses to step. -/
def step (flags : Flags) (m : Machine) : Except Fault (Effect × Machine) :=
  match m.status with
  | .halted => .ok ({}, m)
  | .awaitingInput => .error .notReady
  | .fetching =>
    match m.word? with
    | none => .ok ({}, { m with halted := true })
    | some word =>
      let address := m.pc.toNat
      match Instruction.decode word with
      | some i =>
        let (effect, after) := (m.fetch word).execute flags.policy i
        .ok ({ effect with fetched := some address, instruction := some i }, after.haltIfRanOff)
      | none =>
        if flags.strict then .error (.illegalWord word)
        else .ok ({ fetched := some address }, (m.fetch word).haltIfRanOff)

/-- The counter past an instruction that was waiting for input. It stays within its eight bits. -/
def pastInput (pc : UInt8) : UInt8 := if pc = 255 then 255 else pc + 1

/-- Supplies the input that the machine awaits, and moves past the instruction that asked for it. -/
def resume (flags : Flags) (input : Text) (m : Machine) : Except Fault Machine :=
  match m.status with
  | .awaitingInput =>
    match Word.ofText? input with
    | none => .error (.invalidInput input)
    | some value =>
      let resumed :=
        { m with acc := flags.policy.fit value.toInt, pending := false, pc := pastInput m.pc }
      .ok resumed.haltIfRanOff
  | _ => .error .notReady

def boundsNotes (m : Machine) : List Note :=
  if m.ranOff && !m.halted then [.ranOff m.pc.toNat] else []

def instructionNotes (address : Nat) (word : Word) : Option Instruction → List Note
  | some .inp => [.inputAwaited address]
  | some .hlt => [.haltReached address]
  | some _ => []
  | none => [.wordSkipped address word]

def stepNotes (flags : Flags) (m : Machine) : List Note :=
  match m.status, m.word? with
  | .fetching, none => m.boundsNotes
  | .fetching, some word =>
    let i := Instruction.decode word
    let address := m.pc.toNat
    if i.isNone && flags.strict then []
    else
      let after := match i with
        | some i => ((m.fetch word).execute flags.policy i).2
        | none => m.fetch word
      instructionNotes address word i ++
        [.wordExecuted address word i after.acc after.pc.toNat] ++ after.boundsNotes
  | _, _ => []

def resumeNotes (input : Text) (m : Machine) : List Note :=
  match m.status, Word.ofText? input with
  | .awaitingInput, some value =>
    .inputReceived value :: boundsNotes { m with pc := pastInput m.pc, pending := false }
  | _, _ => []

def statusText : Status → String
  | .fetching => ""
  | .awaitingInput => "  (waiting for input)"
  | .halted => "  (halted)"

def text (m : Machine) : Text :=
  "ACC: ".toList ++ m.acc.threeDigits ++ "  PC: ".toList ++ Decimal.padded 3 m.pc.toNat ++
    "  IR: ".toList ++ m.ir.threeDigits ++ "  AR: ".toList ++ m.ar.twoDigits ++
    (statusText m.status).toList

end Machine
end LittleMan
