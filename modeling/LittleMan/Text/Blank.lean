import LittleMan.Text.Basic

/-!
# Blank characters

The characters of the Unicode property White_Space. Lines shown in reports and tokens read as input
are trimmed by this property.
-/

namespace LittleMan.Text

/-- The ranges of the property White_Space, ascending. -/
def blankRanges : List (Nat × Nat) :=
  [(0x09, 0x0D), (0x20, 0x20), (0x85, 0x85), (0xA0, 0xA0), (0x1680, 0x1680), (0x2000, 0x200A),
   (0x2028, 0x2029), (0x202F, 0x202F), (0x205F, 0x205F), (0x3000, 0x3000)]

def isBlank (c : Char) : Bool := inRanges blankRanges c

def trimBlanks (t : Text) : Text := trim isBlank t

def trimBlanksRight (t : Text) : Text := trimRight isBlank t

end LittleMan.Text
