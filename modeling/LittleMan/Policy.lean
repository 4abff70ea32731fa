import LittleMan.Word
import LittleMan.Text.Quoted

/-!
# Accumulator policies

How the exact result of an addition, a subtraction or an input is fitted into the accumulator.
-/

namespace LittleMan

/-- How results are fitted into the accumulator. -/
inductive Policy where
  /-- Any word; a result beyond 32 bits wraps. -/
  | unchecked
  /-- Three digits: the result modulo 1000. -/
  | wrap
  /-- Three digits and a sign: the nearest number from -999 to 999. -/
  | clamp
deriving DecidableEq, Repr, Inhabited

namespace Policy

/-- The word that stands in the accumulator for an exact result. -/
def fit : Policy → Int → Word
  | .unchecked, n => Int32.ofInt n
  | .wrap, n => Int32.ofInt (n % 1000)
  | .clamp, n => Int32.ofInt (max (-999) (min n 999))

def name : Policy → String
  | .unchecked => "unchecked"
  | .wrap => "wrap"
  | .clamp => "clamp"

/-- The policy of that name, whatever the case of its ASCII letters. -/
def ofName? (t : Text) : Option Policy :=
  [unchecked, wrap, clamp].find? fun p => t.map Char.toLower == p.name.toList

/-- What is said of a name that no policy has. -/
def unknownMessage (t : Text) : Text :=
  "unknown accumulator policy ".toList ++ Text.quoted t ++
    " (expected unchecked, wrap, or clamp)".toList

end Policy
end LittleMan
