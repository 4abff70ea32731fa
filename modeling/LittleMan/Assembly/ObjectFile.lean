import LittleMan.Assembly.SymbolTable
import LittleMan.Memory

/-!
# Object files

An object file is a program ready to be loaded: the words of all cells, and how many of them the
program wrote. A program is assembled in two passes, labels first, so an operand may name a label
that is defined further down.

Assembly is lenient unless it is strict: an operand that cannot be understood counts as 0, the last
definition of a label holds, and statements beyond the memory are dropped.
-/

namespace LittleMan.Assembly

structure Options where
  /-- Refuse what would otherwise be assembled as well as it goes. -/
  strict : Bool := false
  /-- Keep the symbol table and the source. -/
  symbols : Bool := false
deriving DecidableEq, Repr

/-- A program ready to be loaded. -/
structure ObjectFile where
  words : Memory
  /-- How many cells the program wrote. -/
  length : Nat
  symbols : Option SymbolTable
deriving DecidableEq

def ObjectFile.empty : ObjectFile := ⟨Memory.empty, 0, none⟩

/-- The words that the program wrote, each with its address. -/
def ObjectFile.cells (o : ObjectFile) : List (Word × Nat) := (o.words.toList.take o.length).zipIdx

/-- The word for an address that a label names: the largest word if it does not fit in one. -/
def wordOfAddress (address : Nat) : Word := Int32.ofInt (min address 2147483647)

/-- The value of an operand. A label counts before an integer, so a label may look like a number. -/
def operandValue (strict : Bool) (labels : Labels) (operand : Lexeme) : Noted Error Word :=
  match labels.find? operand.text with
  | some b => return wordOfAddress b.address
  | none =>
    match Word.ofText? operand.text with
    | some value => return value
    | none =>
      if strict then Noted.fail ⟨.invalidOperand, .one operand.span⟩
      else do
        Noted.tell [.operandUnresolved operand.text]
        return 0

/-- Strict assembly allows this operand value: an address for an instruction that takes one, three
digits and a sign for data. -/
def allowed (m : Mnemonic) (value : Word) : Bool :=
  if m.takesAddress then 0 ≤ value.toInt && value.toInt < memorySize
  else -999 ≤ value.toInt && value.toInt ≤ 999

/-- The word of an instruction that is added to its operand. -/
def encodeWithOperand (strict : Bool) (labels : Labels) (s : Statement) (m : Mnemonic) :
    Noted Error Word := do
  let value ← match s.operand with
    | some operand => operandValue strict labels operand
    | none =>
      if strict && m.takesAddress then Noted.fail ⟨.missingOperand, .one s.instruction.span⟩
      else pure 0
  if strict && !allowed m value then
    Noted.fail ⟨.operandOutOfRange, .one ((s.operand.map Lexeme.span).getD s.span)⟩
  else
    return m.base + value

def encode (strict : Bool) (labels : Labels) (s : Statement) : Noted Error Word :=
  match s.verb with
  | .unknown name => Noted.fail ⟨.unknownInstruction (Text.upper name), .one s.instruction.span⟩
  | .known m =>
    match m with
    | .inp | .out | .hlt => return m.base
    | m => encodeWithOperand strict labels s m

def encodeAt (strict : Bool) (labels : Labels) (s : Statement) (address : Nat) :
    Noted Error Word := do
  if strict && memorySize ≤ address then Noted.fail ⟨.capacityExceeded, .one s.span⟩
  let word ← encode strict labels s
  if address < memorySize then Noted.tell [.wordAssembled address word s.text]
  return word

def ObjectFile.ofStatements (options : Options) (table : SymbolTable) (statements : List Statement) :
    Noted Error ObjectFile := do
  let words ← statements.zipIdx.mapM fun (s, address) =>
    encodeAt options.strict table.labels s address
  let length := min words.length memorySize
  if memorySize < words.length then Noted.tell [.statementsDropped (words.length - memorySize)]
  Noted.tell [.programAssembled length]
  return ⟨Memory.ofWords words, length, if options.symbols then some table else none⟩

def readingNotes (statements : List Statement) : List Note :=
  (statements.filter (!·.extra.isEmpty)).map (fun s => .wordsIgnored s.extra.length s.verb.text) ++
    [.statementsRead statements.length]

/-- Assembles the source of a program. -/
def assemble (options : Options) (source : Text) : Noted Error ObjectFile := do
  let statements := Statement.ofSource source
  Noted.tell (readingNotes statements)
  let kept := if options.symbols then some source else none
  let table ← SymbolTable.ofStatements options.strict kept statements
  ObjectFile.ofStatements options table statements

end LittleMan.Assembly
