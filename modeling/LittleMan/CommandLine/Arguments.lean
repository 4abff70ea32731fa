import LittleMan.Policy

/-!
# Arguments

What the program is asked to do on its command line. Options may stand before or after the path,
flags of one letter may be written together, and a value may be joined to its option. A double
hyphen ends the options. The arguments are read from left to right, and the first of them that is a
fault, or that asks for help, decides.
-/

namespace LittleMan.CommandLine

inductive Flag where
  | input
  | limit
  | delay
  | strict
  | policy
  | listing
  | verbose
  | help
  | version
deriving DecidableEq, Repr

namespace Flag

/-- The long name of an option, after two hyphens. -/
def long : Flag → String
  | input => "input"
  | limit => "limit"
  | delay => "delay-ms"
  | strict => "strict"
  | policy => "policy"
  | listing => "listing"
  | verbose => "verbose"
  | help => "help"
  | version => "version"

/-- The letter of an option, after one hyphen. -/
def letter? : Flag → Option Char
  | input => some 'i'
  | limit => some 'l'
  | verbose => some 'v'
  | help => some 'h'
  | version => some 'V'
  | delay | strict | policy | listing => none

def takesValue : Flag → Bool
  | input | limit | delay | policy => true
  | strict | listing | verbose | help | version => false

/-- The value may start with a hyphen though it is an argument of its own. -/
def takesHyphen : Flag → Bool
  | input => true
  | _ => false

end Flag

/-- Why the arguments are refused. -/
inductive UsageError where
  | noCommand
  | unknownCommand (name : Text)
  | unknownArgument (argument : Text)
  | missingPath
  | missingValue (flag : Flag)
  | invalidValue (flag : Flag) (value : Text)
  | unwantedValue (flag : Flag)
  | repeated (flag : Flag)
deriving DecidableEq, Repr

namespace UsageError

def message : UsageError → Text
  | noCommand => "a command is required".toList
  | unknownCommand name => "unrecognized command ".toList ++ Text.quoted name
  | unknownArgument argument => "unexpected argument ".toList ++ Text.quoted argument
  | missingPath => "a source file is required".toList
  | missingValue flag => s!"a value is required for --{flag.long}".toList
  | invalidValue flag value =>
    "invalid value ".toList ++ Text.quoted value ++ s!" for --{flag.long}".toList
  | unwantedValue flag => s!"no value is allowed for --{flag.long}".toList
  | repeated flag => s!"--{flag.long} cannot be used more than once".toList

end UsageError

/-- A piece of the command line. -/
inductive Piece where
  /-- An option that takes no value. -/
  | bare (flag : Flag)
  | valued (flag : Flag) (value : Text)
  /-- An argument that is no option. -/
  | word (text : Text)
  | fault (error : UsageError)
deriving DecidableEq, Repr

namespace Piece

/-- The argument is written as an option. -/
def looksLikeOption : Text → Bool
  | '-' :: _ :: _ => true
  | _ => false

/-- What the letters after one hyphen say, and the option at their end that still lacks a value. -/
def ofLetters (accepted : List Flag) : Text → List Piece × Option Flag
  | [] => ([], none)
  | c :: rest =>
    match accepted.find? (·.letter? == some c) with
    | none => ([.fault (.unknownArgument ['-', c])], none)
    | some flag =>
      if flag.takesValue then
        match rest with
        | [] => ([], some flag)
        | '=' :: value => ([.valued flag value], none)
        | value => ([.valued flag value], none)
      else
        let (pieces, lacking) := ofLetters accepted rest
        (.bare flag :: pieces, lacking)

/-- What an argument with two hyphens in front says, and the option that still lacks a value. -/
def ofLong (accepted : List Flag) (argument : Text) : List Piece × Option Flag :=
  let name := argument.takeWhile (· != '=')
  let value := argument.dropWhile (· != '=')
  match accepted.find? (·.long.toList == name), value with
  | none, _ => ([.fault (.unknownArgument argument)], none)
  | some flag, [] => if flag.takesValue then ([], some flag) else ([.bare flag], none)
  | some flag, _ :: joined =>
    if flag.takesValue then ([.valued flag joined], none)
    else ([.fault (.unwantedValue flag)], none)

/-- What one argument says, and the option that still lacks a value. -/
def ofArgument (accepted : List Flag) : Text → List Piece × Option Flag
  | '-' :: '-' :: name => ofLong accepted name
  | '-' :: c :: letters => ofLetters accepted (c :: letters)
  | argument => ([.word argument], none)

/-- The pieces of a command's arguments, of which the command accepts some options. -/
def ofArguments (accepted : List Flag) : List Text → List Piece
  | [] => []
  | argument :: rest =>
    if argument = ['-', '-'] then rest.map .word
    else match ofArgument accepted argument with
      | (pieces, none) => pieces ++ ofArguments accepted rest
      | (pieces, some flag) =>
        match rest with
        | [] => pieces ++ [.fault (.missingValue flag)]
        | value :: rest =>
          if looksLikeOption value && !flag.takesHyphen then pieces ++ [.fault (.missingValue flag)]
          else pieces ++ .valued flag value :: ofArguments accepted rest

end Piece

/-- What was given for a command. -/
structure Settings where
  path : Option Text := none
  inputs : List Text := []
  limit : Option UInt64 := none
  delay : Option UInt64 := none
  policy : Option Policy := none
  strict : Bool := false
  listing : Bool := false
  verbosity : Nat := 0
deriving DecidableEq, Repr

inductive Command where
  /-- Assemble and run a program. -/
  | run
  /-- Assemble a program and show its memory. -/
  | assemble
  /-- Look for errors in a program. -/
  | check
deriving DecidableEq, Repr

namespace Command

def name : Command → String
  | run => "run"
  | assemble => "assemble"
  | check => "check"

def all : List Command := [run, assemble, check]

def accepted : Command → List Flag
  | run => [.input, .limit, .delay, .strict, .policy, .verbose, .help]
  | assemble => [.strict, .listing, .verbose, .help]
  | check => [.strict, .verbose, .help]

end Command

/-- What the arguments ask for. -/
inductive Request where
  | perform (command : Command) (path : Text) (settings : Settings)
  | help
  | version
deriving DecidableEq, Repr

/-- Why reading the arguments ends before the last of them. -/
inductive Interruption where
  | error (error : UsageError)
  | help
  | version
deriving DecidableEq, Repr

/-- A number of 64 bits. -/
def number? (t : Text) : Option UInt64 :=
  (Decimal.unsigned? t).bind fun n =>
    if n < 18446744073709551616 then some (UInt64.ofNat n) else none

namespace Settings

/-- Sets what may be set once. -/
def once {α : Type} (flag : Flag) (value : Text) (before : Option α) (read : Text → Option α) :
    Except Interruption (Option α) :=
  if before.isSome then .error (.error (.repeated flag))
  else match read value with
    | some a => .ok (some a)
    | none => .error (.error (.invalidValue flag value))

/-- The settings after one more piece. -/
def add (s : Settings) : Piece → Except Interruption Settings
  | .fault error => .error (.error error)
  | .bare .help => .error .help
  | .bare .version => .error .version
  | .bare .verbose => .ok { s with verbosity := s.verbosity + 1 }
  | .bare .strict =>
    if s.strict then .error (.error (.repeated .strict)) else .ok { s with strict := true }
  | .bare .listing =>
    if s.listing then .error (.error (.repeated .listing)) else .ok { s with listing := true }
  | .bare flag => .error (.error (.missingValue flag))
  | .valued .input value => .ok { s with inputs := s.inputs ++ [value] }
  | .valued .limit value => do return { s with limit := ← once .limit value s.limit number? }
  | .valued .delay value => do return { s with delay := ← once .delay value s.delay number? }
  | .valued .policy value => do
    return { s with policy := ← once .policy value s.policy Policy.ofName? }
  | .valued flag _ => .error (.error (.unwantedValue flag))
  | .word text =>
    if s.path.isSome then .error (.error (.unknownArgument text))
    else if text = [] then .error (.error .missingPath)
    else .ok { s with path := some text }

end Settings

namespace Request

/-- What a command's own arguments ask for. How often the log was asked for before the command
counts only if it is not asked for again. -/
def ofCommand (command : Command) (verbosity : Nat) (arguments : List Text) :
    Except Interruption Request := do
  let settings ← (Piece.ofArguments command.accepted arguments).foldlM Settings.add {}
  match settings.path with
  | none => .error (.error .missingPath)
  | some path =>
    let verbosity := if settings.verbosity = 0 then verbosity else settings.verbosity
    return .perform command path { settings with verbosity }

/-- What comes of asking for help about the arguments. It is given about the whole, about one command
or about help itself, and none of these has commands of its own. -/
def ofHelp : List Text → Interruption
  | [] => .help
  | topic :: rest =>
    if topic = "help".toList || Command.all.any (·.name.toList == topic) then
      match rest with
      | [] => .help
      | extra :: _ => .error (.unknownCommand extra)
    else .error (.unknownCommand topic)

/-- What is asked for after the options that stand before the command. -/
def ofCommandName (verbosity : Nat) (name : Text) (arguments : List Text) :
    Except Interruption Request :=
  match Command.all.find? (·.name.toList == name) with
  | some command => ofCommand command verbosity arguments
  | none =>
    if name = "help".toList then .error (ofHelp arguments)
    else .error (.error (.unknownCommand name))

/-- What the arguments ask for, with the options before the command read already. -/
def ofArgumentsFrom (settings : Settings) : List Text → Except Interruption Request
  | [] => .error (.error .noCommand)
  | argument :: rest =>
    if argument = ['-', '-'] then
      match rest with
      | [] => .error (.error .noCommand)
      | name :: _ => .error (.error (.unknownCommand name))
    else if Piece.looksLikeOption argument then do
      let (pieces, _) := Piece.ofArgument [.verbose, .help, .version] argument
      ofArgumentsFrom (← pieces.foldlM Settings.add settings) rest
    else ofCommandName settings.verbosity argument rest

/-- What the arguments ask for. -/
def ofArguments (arguments : List Text) : Except UsageError Request :=
  match ofArgumentsFrom {} arguments with
  | .ok request => .ok request
  | .error (.error error) => .error error
  | .error .help => .ok .help
  | .error .version => .ok .version

end Request

def usage : List String :=
  ["usage: lmc [-v]... <command> [options] <file>",
   "",
   "commands:",
   "  run       assemble and run a program, printing each output on its own line",
   "  assemble  assemble a program and print its memory image",
   "  check     check a program for errors without running it",
   "",
   "options:",
   "  -i, --input <value>    input value (run; can be repeated); stdin is read after these",
   "  -l, --limit <number>   maximum number of instructions to execute (run)",
   "      --delay-ms <ms>    pause before each instruction (run)",
   "      --policy <policy>  unchecked, wrap, or clamp (run)",
   "      --listing          print one line per written cell (assemble)",
   "      --strict           report what would otherwise be ignored",
   "  -v, --verbose          show more of the log (-v for debug, -vv for every step)",
   "  -h, --help             print this text",
   "  -V, --version          print the version"]

def versionLine : String := "lmc 0.1.0"

end LittleMan.CommandLine
