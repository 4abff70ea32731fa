import LittleMan.Source.Span

/-!
# Tokens

A source is made of words, comments and newlines, with gaps between them. A word is everything up to
the next gap or newline. Two slashes where a word could start open a comment, which runs to the end
of its line; two slashes inside a word belong to the word.
-/

namespace LittleMan.Source

inductive Token where
  | word (lexeme : Lexeme)
  | comment (lexeme : Lexeme)
  | newline (start : Nat)
deriving DecidableEq, Repr

def Token.span : Token → Span
  | .word lexeme => lexeme.span
  | .comment lexeme => lexeme.span
  | .newline start => ⟨start, start + 1⟩

/-- The character separates words on a line: a space, a tab, a carriage return, a vertical tab or a
form feed. -/
def isGap (c : Char) : Bool := c ∈ [' ', '\t', '\r', '\x0B', '\x0C']

def isWordChar (c : Char) : Bool := !isGap c && c != '\n'

def isLineChar (c : Char) : Bool := c != '\n'

/-- A comment opens at the start of the text. -/
def opensComment (t : Text) : Bool := ['/', '/'].isPrefixOf t

/-- The tokens of a text that starts at byte `offset` of its source, where a word could start. -/
def tokensFrom (offset : Nat) (t : Text) : List Token :=
  match t with
  | [] => []
  | c :: rest =>
    if c = '\n' then .newline offset :: tokensFrom (offset + 1) rest
    else if isGap c then tokensFrom (offset + c.utf8Size) rest
    else if opensComment (c :: rest) then
      let written := c :: rest.takeWhile isLineChar
      .comment ⟨written, offset⟩ ::
        tokensFrom (offset + Text.byteLength written) (rest.dropWhile isLineChar)
    else
      let written := c :: rest.takeWhile isWordChar
      .word ⟨written, offset⟩ ::
        tokensFrom (offset + Text.byteLength written) (rest.dropWhile isWordChar)
termination_by t.length
decreasing_by
  · simp
  · simp
  · exact Nat.lt_succ_of_le (List.dropWhile_sublist _).length_le
  · exact Nat.lt_succ_of_le (List.dropWhile_sublist _).length_le

def tokens (source : Text) : List Token := tokensFrom 0 source

/-- The words of each line, in order. There is one more line than there are newlines. -/
def wordLines : List Token → List (List Lexeme)
  | [] => [[]]
  | .newline _ :: more => [] :: wordLines more
  | .comment _ :: more => wordLines more
  | .word lexeme :: more =>
    match wordLines more with
    | [] => [[lexeme]]
    | line :: lines => (lexeme :: line) :: lines

theorem wordLines_ne_nil (tokens : List Token) : wordLines tokens ≠ [] := by
  fun_induction wordLines tokens <;> simp_all

end LittleMan.Source
