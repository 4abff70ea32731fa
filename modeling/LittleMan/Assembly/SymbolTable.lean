import LittleMan.Assembly.Error
import LittleMan.Assembly.Search
import LittleMan.Noted
import LittleMan.Source.Line
import LittleMan.Statement

/-!
# Symbol tables

Which label names which address, which cells are data, and which line of the source each cell comes
from. Every statement takes one cell, so a statement's address is its place among the statements.
-/

namespace LittleMan.Assembly

/-- A label, the address that it names, and the byte of the source where it is defined. -/
structure Binding where
  label : Text
  address : Nat
  start : Nat
deriving DecidableEq, Repr

def Binding.span (b : Binding) : Span := ⟨b.start, b.start + Text.byteLength b.label⟩

/-- The labels of a program, each with one binding. -/
abbrev Labels := List Binding

namespace Labels

def find? (labels : Labels) (label : Text) : Option Binding := List.find? (·.label == label) labels

/-- The label of an address: of the first binding to it, in the order in which they are kept. -/
def labelAt? (labels : Labels) (address : Nat) : Option Text :=
  (List.find? (fun b : Binding => b.address == address) labels).map Binding.label

/-- The labels after one more definition, which replaces an earlier one of the same label. -/
def define (labels : Labels) (b : Binding) : Labels := b :: labels.filter (·.label != b.label)

/-- A definition changes what its own label is bound to, and nothing else. -/
theorem find?_define (labels : Labels) (b : Binding) (label : Text) :
    (labels.define b).find? label = if b.label = label then some b else labels.find? label := by
  by_cases same : b.label = label
  · simp [define, find?, same]
  · rw [if_neg same]
    simp only [define, find?, List.find?_cons, List.find?_filter]
    rw [show (b.label == label) = false by simpa using same]
    dsimp only
    congr 1
    funext other
    by_cases h : other.label = label
    · simp [h, Ne.symm same]
    · simp [h]

/-- The labels after a statement. Strict assembly refuses a second definition of a label. -/
def afterStatement (strict : Bool) (labels : Labels) (address : Nat) (s : Statement) :
    Noted Error Labels :=
  match s.label with
  | none => pure labels
  | some label => do
    let bound : Note := .labelBound label.text address
    match labels.find? label.text with
    | none => Noted.tell [bound]
    | some earlier =>
      if strict then Noted.fail ⟨.duplicateLabel, .two earlier.span label.span⟩
      else Noted.tell [.labelRedefined label.text earlier.address address, bound]
    return labels.define ⟨label.text, address, label.start⟩

def ofStatements (strict : Bool) (statements : List Statement) : Noted Error Labels :=
  statements.zipIdx.foldlM (fun labels (s, address) => labels.afterStatement strict address s) []

end Labels

/-- The source of a program, kept with what was made of it. -/
structure SourceMap where
  source : Text
  /-- The line of each statement, in address order. -/
  lines : List Nat
deriving DecidableEq, Repr

/-- What is known about the addresses of a program. -/
structure SymbolTable where
  labels : Labels
  /-- Whether each statement is data. -/
  data : List Bool
  sourceMap : Option SourceMap
deriving DecidableEq, Repr

namespace SymbolTable

def ofStatements (strict : Bool) (source : Option Text) (statements : List Statement) :
    Noted Error SymbolTable := do
  let labels ← Labels.ofStatements strict statements
  return {
    labels
    data := statements.map fun s => s.verb == .known .dat
    sourceMap := source.map fun text =>
      let starts := Source.lineStarts text
      ⟨text, statements.map fun s => Source.lineAt starts s.span.start⟩ }

def address? (t : SymbolTable) (label : Text) : Option Nat :=
  (t.labels.find? label).map Binding.address

def label? (t : SymbolTable) (address : Nat) : Option Text := t.labels.labelAt? address

def definition? (t : SymbolTable) (label : Text) : Option Span :=
  (t.labels.find? label).map Binding.span

/-- The address of a line. The lines are searched by halves, as they increase. -/
def addressOfLine? (t : SymbolTable) (line : Nat) : Option Nat :=
  t.sourceMap.bind fun m => place? m.lines line

def lineOfAddress? (t : SymbolTable) (address : Nat) : Option Nat :=
  t.sourceMap.bind fun m => m.lines[address]?

/-- The statement at an address is data, even if its word means an instruction. -/
def isData (t : SymbolTable) (address : Nat) : Bool := t.data.getD address false

end SymbolTable
end LittleMan.Assembly
