import LittleMan.Text.Uppercase

/-!
# Mnemonics

The eleven names of instructions, and the words that stand where an instruction is expected. A word
names an instruction whatever its case: its upper-case form is compared.
-/

namespace LittleMan

inductive Mnemonic where
  | add | sub | sta | lda | bra | brz | brp | inp | out | hlt
  /-- Not an instruction: the statement's cell holds the operand's value. -/
  | dat
deriving DecidableEq, Repr

namespace Mnemonic

/-- All mnemonics, in the order in which messages list them. -/
def all : List Mnemonic := [add, sub, sta, lda, bra, brz, brp, inp, out, hlt, dat]

def name : Mnemonic → String
  | add => "ADD"
  | sub => "SUB"
  | sta => "STA"
  | lda => "LDA"
  | bra => "BRA"
  | brz => "BRZ"
  | brp => "BRP"
  | inp => "INP"
  | out => "OUT"
  | hlt => "HLT"
  | dat => "DAT"

def ofText? (t : Text) : Option Mnemonic := all.find? fun m => Text.upper t == m.name.toList

def takesAddress : Mnemonic → Bool
  | add | sub | sta | lda | bra | brz | brp => true
  | inp | out | hlt | dat => false

theorem mem_all (m : Mnemonic) : m ∈ all := by cases m <;> simp [all]

end Mnemonic

/-- What a word says where an instruction is expected. -/
inductive Verb where
  | known (mnemonic : Mnemonic)
  | unknown (text : Text)
deriving DecidableEq, Repr

namespace Verb

def ofText (t : Text) : Verb :=
  match Mnemonic.ofText? t with
  | some m => known m
  | none => unknown t

/-- How an instruction is shown: a mnemonic in upper case, any other word as it was written. -/
def text : Verb → Text
  | known m => m.name.toList
  | unknown t => t

def isKnown : Verb → Bool
  | known _ => true
  | unknown _ => false

def takesAddress : Verb → Bool
  | known m => m.takesAddress
  | unknown _ => false

end Verb
end LittleMan
