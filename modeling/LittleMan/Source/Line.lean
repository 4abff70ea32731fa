import LittleMan.Source.Span
import LittleMan.Text.Blank

/-!
# Lines of a source

Every statement stands on a line of its own, so places in a source are shown as a line and a column.
Lines and columns count from 0, and columns count bytes.
-/

namespace LittleMan.Source

structure Position where
  line : Nat
  column : Nat
deriving DecidableEq, Repr, Inhabited

/-- Where lines start that follow a newline, for a text that starts at `offset`. -/
def startsAfterNewlines (offset : Nat) : Text → List Nat
  | [] => []
  | c :: rest =>
    let next := offset + c.utf8Size
    if c = '\n' then next :: startsAfterNewlines next rest else startsAfterNewlines next rest

/-- Where each line starts: at the start of the source, and after each newline. -/
def lineStarts (source : Text) : List Nat := 0 :: startsAfterNewlines 0 source

/-- The line that holds a byte: the last one that starts at it or before. -/
def lineAt (starts : List Nat) (index : Nat) : Nat := starts.countP (· ≤ index) - 1

/-- The line and column of a byte. What lies past the end is on the last line. -/
def position (source : Text) (index : Nat) : Position :=
  let starts := lineStarts source
  let line := lineAt starts index
  ⟨line, index - starts.getD line 0⟩

/-- The range of a line without the white space at its ends, if the source has that many lines. -/
def lineSpan? (source : Text) (line : Nat) : Option Span := do
  let start ← (lineStarts source)[line]?
  let written ← (Text.lines source)[line]?
  let shown := Text.trimBlanksRight written
  let indent := Text.byteLength shown - Text.byteLength (shown.dropWhile Text.isBlank)
  return ⟨start + indent, start + Text.byteLength shown⟩

/-- The piece of a source between two bytes that are the starts of characters. -/
def slice : Text → Span → Text
  | [], _ => []
  | c :: rest, ⟨start, stop⟩ =>
    if 0 < start then slice rest ⟨start - c.utf8Size, stop - c.utf8Size⟩
    else if 0 < stop then c :: slice rest ⟨0, stop - c.utf8Size⟩
    else []

theorem length_startsAfterNewlines (offset : Nat) (t : Text) :
    (startsAfterNewlines offset t).length = t.count '\n' := by
  induction t generalizing offset with
  | nil => simp [startsAfterNewlines]
  | cons c rest ih =>
    simp only [startsAfterNewlines]
    split
    next newline => simp [newline, ih]
    next other => simp [other, ih]

/-- Every line has a start. -/
theorem length_lineStarts (source : Text) :
    (lineStarts source).length = (Text.lines source).length := by
  simp [lineStarts, length_startsAfterNewlines, Text.length_lines]

end LittleMan.Source
