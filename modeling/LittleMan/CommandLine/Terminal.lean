import LittleMan.Note
import LittleMan.Text.Blank
import LittleMan.Text.Plain

/-!
# Terminals

What a command needs of its surroundings: files, the user's input, and two streams to write to. The
log is plain text, whatever the names in a program are written with.
-/

namespace LittleMan.CommandLine

inductive ReadFailure where
  | notFound
  /-- The path goes on after a file. -/
  | notFolder
  | isFolder
  | nameTooLong
  /-- The system refuses, for a reason that has a number. -/
  | refused (reason : String) (number : Nat)
  | notText
deriving DecidableEq, Repr

def ReadFailure.message : ReadFailure → String
  | notFound => "No such file or directory (os error 2)"
  | notFolder => "Not a directory (os error 20)"
  | isFolder => "Is a directory (os error 21)"
  | nameTooLong => "File name too long (os error 36)"
  | refused reason number => s!"{reason} (os error {number})"
  | notText => "stream did not contain valid UTF-8"

/-- The text that the bytes of a file stand for. -/
def textOfBytes (bytes : ByteArray) : Except ReadFailure Text :=
  match String.fromUTF8? bytes with
  | some source => .ok source.toList
  | none => .error .notText

structure Terminal (m : Type → Type) where
  file : Text → m (Except ReadFailure Text)
  /-- The next line of the user's input that is not blank, if there is one. -/
  nextInput : m (Option Text)
  putLine : Text → m Unit
  /-- Writes a text about what went on. -/
  log : Text → m Unit
  /-- Waits for a number of milliseconds. -/
  wait : UInt64 → m Unit

/-- A line of input without the white space around it, if anything is left. -/
def inputOfLine? (line : Text) : Option Text :=
  let shown := Text.trimBlanks line
  if shown = [] then none else some shown

/-- The pieces of input in a text: its lines that are not blank. -/
def inputsOfText (t : Text) : List Text := (Text.lines t).filterMap inputOfLine?

/-- The level up to which notes are shown when the log was asked for so many times. -/
def levelOf (verbosity : Nat) : Level :=
  match verbosity with
  | 0 => .warn
  | 1 => .debug
  | _ => .trace

def noteLine (n : Note) : Text :=
  let level := n.level.name.toList
  '[' :: level ++ List.replicate (5 - level.length) ' ' ++ ' ' :: n.origin.toList ++ "] ".toList ++
    n.message

def noteEntry (n : Note) : Text := Text.plain (noteLine n ++ ['\n'])

namespace Terminal

variable {m : Type → Type} [Monad m]

def putLines (t : Terminal m) (lines : List Text) : m Unit := lines.forM t.putLine

def logLine (t : Terminal m) (line : Text) : m Unit := t.log (line ++ ['\n'])

def logLines (t : Terminal m) (lines : List Text) : m Unit := lines.forM t.logLine

/-- Writes the notes that are to be shown. -/
def note (t : Terminal m) (limit : Level) (notes : List Note) : m Unit :=
  (notes.filter fun n => limit.shows n.level).forM fun n => t.log (noteEntry n)

end Terminal
end LittleMan.CommandLine
