import LittleMan.CommandLine.Perform

/-!
# The program

The command line of the Little Man Computer, on the terminal that the system provides.
-/

namespace LittleMan.CommandLine

/-- The number of a system error, whichever sign it is reported with. -/
def systemNumber (number : UInt32) : Nat := min number.toNat (4294967296 - number.toNat)

def failureOfNumber (number : UInt32) (reason : String) : ReadFailure :=
  match systemNumber number with
  | 2 => .notFound
  | 20 => .notFolder
  | 21 => .isFolder
  | 36 => .nameTooLong
  | number => .refused reason.capitalize number

def failureOf : IO.Error → ReadFailure
  | .noFileOrDirectory _ number reason | .permissionDenied _ number reason
  | .inappropriateType _ number reason | .resourceExhausted _ number reason
  | .invalidArgument _ number reason => failureOfNumber number reason
  | .otherError number reason => failureOfNumber number reason
  | error => .refused (toString error) 0

def fileOnDisk (path : Text) : IO (Except ReadFailure Text) := do
  try
    return textOfBytes (← IO.FS.readBinFile (String.ofList path))
  catch error => return .error (failureOf error)

/-- The next line of standard input that is not blank. -/
partial def nextOfInput : IO (Option Text) := do
  let line ← try (← IO.getStdin).getLine catch _ => pure ""
  if line.isEmpty then return none
  match inputOfLine? line.toList with
  | some shown => return some shown
  | none => nextOfInput

def systemTerminal : Terminal IO where
  file := fileOnDisk
  nextInput := nextOfInput
  putLine line := do
    let stdout ← IO.getStdout
    stdout.putStrLn (String.ofList line)
    stdout.flush
  log text := do (← IO.getStderr).putStr (String.ofList text)
  wait milliseconds := IO.sleep (UInt32.ofNat (min milliseconds.toNat 4294967295))

/-- More turns than any machine can take. -/
def turnsWithoutEnd : Nat := 4611686018427387904

end LittleMan.CommandLine

open LittleMan.CommandLine in
def main (arguments : List String) : IO UInt32 := do
  let ending ← respond systemTerminal turnsWithoutEnd (arguments.map String.toList)
  return UInt32.ofNat ((ending.getD .failure).code)
