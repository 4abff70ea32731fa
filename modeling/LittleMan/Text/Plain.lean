import LittleMan.Text.Basic

/-!
# Plain text

What is left of a text when everything is taken out that a terminal obeys instead of showing it:
control characters, except those that lay a text out, and the sequences that an escape character
begins. A sequence lasts until it is ended, so an open one can take the end of the text with it.
-/

namespace LittleMan.Text

/-- What is open in front of the next character of a text. -/
inductive ControlMode where
  /-- Nothing: the text itself goes on. -/
  | idle
  | escape
  /-- An escape sequence that its next final character ends. -/
  | escapeIntermediate
  | controlSequence
  /-- A device control string that has only begun. -/
  | deviceEntry
  /-- The parameters of a device control string. -/
  | deviceParameters
  /-- A device control string after its parameters. -/
  | deviceIntermediate
  /-- A string of any characters, such as the data of a device control string. -/
  | controlString
  | systemCommand
deriving DecidableEq, Repr

namespace ControlMode

/-- The control characters that lay a text out. -/
def isLayout (c : Char) : Bool := c == '\t' || c == '\n' || c == '\x0c' || c == '\r'

/-- The character shows when nothing is open: it is a layout character or no control character of
ASCII. -/
def isVisible (c : Char) : Bool := isLayout c || (' ' ≤ c && c != '\x7f')

/-- The characters that stand between the parameters and the final character of a sequence. -/
def isIntermediate (c : Char) : Bool := ' ' ≤ c && c ≤ '/'

/-- The characters that parameters are written with. -/
def isParameter (c : Char) : Bool := '0' ≤ c && c ≤ '?'

/-- The characters that mark parameters of a private meaning. -/
def isPrivateMark (c : Char) : Bool := '<' ≤ c && c ≤ '?'

/-- The characters that end a control sequence. -/
def isFinal (c : Char) : Bool := '@' ≤ c && c ≤ '~'

/-- The byte 9C, which ends a control string, is one of the bytes of the character. -/
def holdsTerminator (c : Char) : Bool := (String.utf8EncodeChar c).contains 0x9C

/-- What an escape character and the character after it open. -/
def opened (c : Char) : ControlMode :=
  if isLayout c then idle
  else if isIntermediate c then escapeIntermediate
  else match c with
    | '[' => controlSequence
    | 'P' => deviceEntry
    | ']' => systemCommand
    | 'X' | '^' | '_' => controlString
    | _ => if isParameter c || isFinal c then idle else escape

/-- What is open after a character. An escape character always opens a sequence anew, and a cancel
or substitute character closes any. -/
def next (mode : ControlMode) (c : Char) : ControlMode :=
  if c = '\x1b' then escape
  else if c = '\x18' || c = '\x1a' then idle
  else match mode with
    | idle => idle
    | escape => opened c
    | escapeIntermediate =>
      if isLayout c || isParameter c || isFinal c then idle else escapeIntermediate
    | controlSequence => if isLayout c || isFinal c then idle else controlSequence
    | deviceEntry =>
      if isIntermediate c then deviceIntermediate
      else if isParameter c then deviceParameters
      else if isFinal c then controlString
      else deviceEntry
    | deviceParameters =>
      if isIntermediate c then deviceIntermediate
      else if isPrivateMark c || isFinal c then controlString
      else deviceParameters
    | deviceIntermediate => if isParameter c || isFinal c then controlString else deviceIntermediate
    | controlString => if holdsTerminator c then idle else controlString
    | systemCommand => if c = '\x07' then idle else systemCommand

/-- The character is part of the plain text. A layout character shows in a short sequence too, which
it breaks off. -/
def shows (mode : ControlMode) (c : Char) : Bool :=
  match mode with
  | idle => isVisible c
  | escape | escapeIntermediate | controlSequence => isLayout c
  | deviceEntry | deviceParameters | deviceIntermediate | controlString | systemCommand => false

end ControlMode

/-- The plain text of a text that begins where something may be open. -/
def plainFrom (mode : ControlMode) : Text → Text
  | [] => []
  | c :: rest =>
    if mode.shows c then c :: plainFrom (mode.next c) rest else plainFrom (mode.next c) rest

/-- The text without what a terminal would obey. -/
def plain (t : Text) : Text := plainFrom .idle t

end LittleMan.Text
