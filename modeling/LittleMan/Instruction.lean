import LittleMan.Mnemonic
import LittleMan.Word

/-!
# Instructions

What a word in memory means when it is fetched. A word splits into an operation, its hundreds, and
an address, the rest. Words that name no operation mean nothing, and what then happens is up to the
machine. Main statement: an encoded instruction decodes to itself (`decode_encode`).
-/

namespace LittleMan

abbrev memorySize : Nat := 100

abbrev Address := Fin memorySize

inductive Instruction where
  | add (a : Address)
  | sub (a : Address)
  | sta (a : Address)
  | lda (a : Address)
  | bra (a : Address)
  | brz (a : Address)
  | brp (a : Address)
  | inp
  | out
  | hlt
deriving DecidableEq, Repr

namespace Word

/-- The hundreds of a word, rounded toward zero. -/
def operation (w : Word) : Word := w / 100

/-- What remains of a word without its hundreds; it has the word's sign. -/
def remainder (w : Word) : Word := w % 100

end Word

namespace Instruction

/-- The address in a word of three digits. -/
def addressOf (w : Word) : Address := Fin.ofNat memorySize w.remainder.toInt.toNat

/-- The instruction that a word means, if it means one. A word of fewer than three digits, even a
negative one, has no hundreds and halts the machine. -/
def decode (w : Word) : Option Instruction :=
  match w.operation.toInt with
  | 0 => some .hlt
  | 1 => some (.add (addressOf w))
  | 2 => some (.sub (addressOf w))
  | 3 => some (.sta (addressOf w))
  | 5 => some (.lda (addressOf w))
  | 6 => some (.bra (addressOf w))
  | 7 => some (.brz (addressOf w))
  | 8 => some (.brp (addressOf w))
  | 9 =>
    match w.remainder.toInt with
    | 1 => some .inp
    | 2 => some .out
    | _ => none
  | _ => none

def mnemonic : Instruction → Mnemonic
  | add _ => .add
  | sub _ => .sub
  | sta _ => .sta
  | lda _ => .lda
  | bra _ => .bra
  | brz _ => .brz
  | brp _ => .brp
  | inp => .inp
  | out => .out
  | hlt => .hlt

def address? : Instruction → Option Address
  | add a | sub a | sta a | lda a | bra a | brz a | brp a => some a
  | inp | out | hlt => none

/-- An instruction as it is shown: its name and its address in two digits. -/
def text (i : Instruction) : Text :=
  match i.address? with
  | some a => i.mnemonic.name.toList ++ ' ' :: addressText a.val
  | none => i.mnemonic.name.toList

end Instruction

namespace Mnemonic

/-- The word to which the operand is added. Input, output and halt take no operand. -/
def base : Mnemonic → Word
  | .add => 100
  | .sub => 200
  | .sta => 300
  | .lda => 500
  | .bra => 600
  | .brz => 700
  | .brp => 800
  | .inp => 901
  | .out => 902
  | .hlt => 0
  | .dat => 0

end Mnemonic

namespace Instruction

def encode (i : Instruction) : Word :=
  i.mnemonic.base + Int32.ofNat ((i.address?.map Fin.val).getD 0)

theorem decode_encode (i : Instruction) : decode i.encode = some i := by
  cases i with
  | inp => decide
  | out => decide
  | hlt => decide
  | _ a => revert a; decide +kernel

end Instruction
end LittleMan
