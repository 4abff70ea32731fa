import LittleMan.Assembly.ObjectFile

/-!
# Listings

How an object file is shown: all words of the memory in rows of ten, or one line for each cell that
the program wrote, with its instruction and its label.
-/

namespace LittleMan.CommandLine

/-- The words of a memory in rows of ten. -/
def imageLines (memory : Memory) : List Text :=
  (List.range 10).map fun row =>
    Text.join [' '] (((memory.toList.drop (10 * row)).take 10).map Word.threeDigits)

/-- What a cell holds: the instruction that its word means, or else data. A cell that was written as
data is shown as data. -/
def cellText (isData : Bool) (word : Word) : Text :=
  match Instruction.decode word, isData with
  | some i, false => i.text
  | _, _ => "DAT ".toList ++ word.text

/-- What a cell of an object file is listed as. -/
def listedText (o : Assembly.ObjectFile) (address : Nat) (word : Word) : Text :=
  cellText (o.symbols.any (·.isData address)) word

/-- A text with spaces after it up to a width. -/
def padRight (width : Nat) (t : Text) : Text := t ++ List.replicate (width - t.length) ' '

def cellLine (o : Assembly.ObjectFile) (address : Nat) (word : Word) : Text :=
  let label := (o.symbols.bind (·.label? address)).getD []
  Text.trimBlanksRight
    (addressText address ++ "  ".toList ++ word.threeDigits ++ "  ".toList ++
      padRight 7 (listedText o address word) ++ ' ' :: label)

/-- The lines of the cells that the program wrote. -/
def listingLines (o : Assembly.ObjectFile) : List Text :=
  o.cells.map fun (word, address) => cellLine o address word

end LittleMan.CommandLine
