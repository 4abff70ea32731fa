import LittleMan.Text.Printable

/-!
# Quoted text

Text that a user typed is shown in messages between double quotes. Quotes, backslashes and the usual
control characters are written as a backslash and a letter, and every other character without a
visible form of its own by its code point in hexadecimal.
-/

namespace LittleMan.Text

/-- The letter that stands for a character after a backslash, for the characters that have one. -/
def escapeLetter? : Char → Option Char
  | '\x00' => some '0'
  | '\t' => some 't'
  | '\r' => some 'r'
  | '\n' => some 'n'
  | '\\' => some '\\'
  | '"' => some '"'
  | _ => none

def quoteChar (c : Char) : Text :=
  match escapeLetter? c with
  | some letter => ['\\', letter]
  | none => if isPrintable c then [c] else "\\u\x7b".toList ++ Nat.toDigits 16 c.toNat ++ ['}']

def quoted (t : Text) : Text := ['"'] ++ t.flatMap quoteChar ++ ['"']

end LittleMan.Text
