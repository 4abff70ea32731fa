import LittleMan.Text.Basic

/-!
# Spans

Where a piece of a source lies, in bytes from the start of the source. A word is kept with the place
where it starts; where it ends follows from its text, so the two cannot disagree.
-/

namespace LittleMan

/-- A range of bytes: from `start` up to, and without, `stop`. -/
structure Span where
  start : Nat
  stop : Nat
deriving DecidableEq, Repr, Inhabited

namespace Span

def length (s : Span) : Nat := s.stop - s.start

end Span

/-- A piece of a source: its text, and the byte where it starts. -/
structure Lexeme where
  text : Text
  start : Nat
deriving DecidableEq, Repr, Inhabited

def Lexeme.span (l : Lexeme) : Span := ⟨l.start, l.start + Text.byteLength l.text⟩

/-- The places that an error points at. -/
inductive Places where
  | one (place : Span)
  | two (earlier later : Span)
  | many (places : List Span)
deriving DecidableEq, Repr

namespace Places

def ofList : List Span → Places
  | [place] => one place
  | [earlier, later] => two earlier later
  | places => many places

def toList : Places → List Span
  | one place => [place]
  | two earlier later => [earlier, later]
  | many places => places

/-- The place that a report points at: the first, or the start of the source if there is none. -/
def first (p : Places) : Span := p.toList.headD ⟨0, 0⟩

theorem toList_ofList (places : List Span) : (ofList places).toList = places := by
  unfold ofList
  split <;> rfl

end Places
end LittleMan
