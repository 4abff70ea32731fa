/-!
# Texts

A text is the list of its characters. Positions in a text are counted in bytes of its UTF-8
encoding, because that is how editors and reports address a place in a file. This module holds the
operations that every other module shares: the length in bytes, cutting a text into lines, and
trimming it.
-/

namespace LittleMan

/-- A text, as the list of its characters. -/
abbrev Text := List Char

namespace Text

/-- How many bytes the UTF-8 encoding of a text takes. -/
def byteLength : Text → Nat
  | [] => 0
  | c :: rest => c.utf8Size + byteLength rest

/-- The pieces of a text between the places where a separator stands. There is one more piece than
there are separators, so the last one is empty when the text ends in a separator. -/
def pieces (separator : Char) : Text → List Text
  | [] => [[]]
  | c :: rest =>
    if c = separator then [] :: pieces separator rest
    else match pieces separator rest with
      | [] => [[c]]
      | piece :: more => (c :: piece) :: more

/-- The lines of a text: the pieces between its newline characters. -/
def lines (t : Text) : List Text := pieces '\n' t

/-- A line without the carriage return at its end, if there is one. -/
def dropReturn (line : Text) : Text :=
  if line.getLast? = some '\r' then line.dropLast else line

/-- The lines of a text without their ends, which are a newline or a carriage return and a newline.
What follows the last newline is a line only if it is not empty, and it keeps its carriage return.
-/
def endedLines (t : Text) : List Text :=
  let last := (lines t).getLastD []
  (lines t).dropLast.map dropReturn ++ if last = [] then [] else [last]

/-- A text without the characters at its end that satisfy `p`. -/
def trimRight (p : Char → Bool) (t : Text) : Text := (t.reverse.dropWhile p).reverse

/-- A text without the characters at either end that satisfy `p`. -/
def trim (p : Char → Bool) (t : Text) : Text := (trimRight p t).dropWhile p

/-- Texts written one after another with a separator between neighbours. -/
def join (separator : Text) : List Text → Text
  | [] => []
  | [t] => t
  | t :: more => t ++ separator ++ join separator more

/-- The character lies in one of the closed ranges of code points. -/
def inRanges (ranges : List (Nat × Nat)) (c : Char) : Bool :=
  ranges.any fun range => range.1 ≤ c.toNat && c.toNat ≤ range.2

theorem byteLength_append (s t : Text) : byteLength (s ++ t) = byteLength s + byteLength t := by
  induction s with
  | nil => simp [byteLength]
  | cons c s ih => simp [byteLength, ih, Nat.add_assoc]

theorem pieces_ne_nil (separator : Char) (t : Text) : pieces separator t ≠ [] := by
  cases t with
  | nil => simp [pieces]
  | cons c rest =>
    simp only [pieces]
    split
    · simp
    · split <;> simp

theorem length_pieces (separator : Char) (t : Text) :
    (pieces separator t).length = t.count separator + 1 := by
  induction t with
  | nil => simp [pieces]
  | cons c rest ih =>
    simp only [pieces]
    split
    next same => simp [same, ih]
    next other =>
      cases found : pieces separator rest with
      | nil => exact absurd found (pieces_ne_nil separator rest)
      | cons piece more => simpa [found, other] using ih

theorem lines_ne_nil (t : Text) : lines t ≠ [] := pieces_ne_nil '\n' t

/-- There is a line for each newline, and one more. -/
theorem length_lines (t : Text) : (lines t).length = t.count '\n' + 1 := length_pieces '\n' t

end Text
end LittleMan
