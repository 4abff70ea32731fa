import LittleMan.Machine.Basic

/-!
# Breakpoints

Conditions that pause a run after a step.
-/

namespace LittleMan

inductive Breakpoint where
  /-- The machine is about to fetch from an address. -/
  | arrival (address : Nat)
  | output
  | store (address : Nat)
  | branch
  /-- The accumulator does not have three digits. -/
  | overflow
  /-- A word that means no instruction was passed over. -/
  | skipped
deriving DecidableEq, Repr

namespace Breakpoint

/-- The condition holds after a step with this effect that led to this state. -/
def holds (m : Machine) (e : Effect) : Breakpoint → Bool
  | arrival address => m.pc.toNat == address
  | output => e.output.isSome
  | store address => e.written.any (·.1 == address)
  | branch => e.branched.isSome
  | overflow => !(-999 ≤ m.acc.toInt && m.acc.toInt ≤ 999)
  | skipped => e.fetched.isSome && e.instruction.isNone

def text : Breakpoint → Text
  | arrival address => "pc == ".toList ++ addressText address
  | output => "on OUT".toList
  | store address => "on STA ".toList ++ addressText address
  | branch => "on branch".toList
  | overflow => "on overflow".toList
  | skipped => "on skipped word".toList

end Breakpoint
end LittleMan
