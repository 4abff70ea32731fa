import LittleMan.Mnemonic
import LittleMan.Source.Token

/-!
# Statements

A statement is a line of the source that holds a word. Its first word is a label if more words
follow and it is not a mnemonic; the next word is the instruction, the next its operand, and what
follows is not assembled. Reading statements never fails: a word that is no mnemonic may stand as
instruction, and is refused when the program is assembled.
-/

namespace LittleMan

structure Statement where
  /-- The name of the statement's address. -/
  label : Option Lexeme
  instruction : Lexeme
  operand : Option Lexeme
  /-- The words after the operand. -/
  extra : List Lexeme
deriving DecidableEq, Repr

namespace Statement

/-- The statement of the words of a line, if there is a word. -/
def ofWords? : List Lexeme → Option Statement
  | [] => none
  | [instruction] => some ⟨none, instruction, none, []⟩
  | first :: second :: rest =>
    if (Verb.ofText first.text).isKnown then some ⟨none, first, some second, rest⟩
    else some ⟨some first, second, rest.head?, rest.tail⟩

def words (s : Statement) : List Lexeme :=
  s.label.toList ++ s.instruction :: (s.operand.toList ++ s.extra)

def verb (s : Statement) : Verb := Verb.ofText s.instruction.text

def span (s : Statement) : Span :=
  ⟨(s.words.headD s.instruction).start, (s.words.getLastD s.instruction).span.stop⟩

/-- A statement in a canonical form: its label, its instruction and its operand with single spaces
between them. -/
def text (s : Statement) : Text :=
  Text.join [' ']
    ((s.label.map Lexeme.text).toList ++ s.verb.text :: (s.operand.map Lexeme.text).toList)

def ofSource (source : Text) : List Statement :=
  (Source.wordLines (Source.tokens source)).filterMap ofWords?

theorem words_ofWords? {line : List Lexeme} {s : Statement} (h : ofWords? line = some s) :
    s.words = line := by
  match line with
  | [] => simp [ofWords?] at h
  | [w] => simp only [ofWords?, Option.some.injEq] at h; subst h; rfl
  | first :: second :: rest =>
    simp only [ofWords?] at h
    split at h <;> simp only [Option.some.injEq] at h <;> subst h
    · rfl
    · cases rest <;> rfl

end Statement
end LittleMan
