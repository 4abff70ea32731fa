import LittleMan.CommandLine.Terminal

/-!
# Folders

Files in folders, and how a path leads to one of them. A path is read from left to right. Its names
stand between slashes; an empty name and a dot lead nowhere else, two dots lead one folder up, and a
slash at the front leads to the top.

The system does this for its own terminal. A terminal that is not the system's has its files here,
with the same reasons why one cannot be read.
-/

namespace LittleMan.CommandLine

/-- What has a name in a folder. -/
inductive Entry where
  | file (bytes : ByteArray)
  | folder (entries : List (Text × Entry))

abbrev Folder := List (Text × Entry)

/-- The bytes of the longest name in a folder. -/
def longestName : Nat := 255

/-- The bytes of the longest path. -/
def longestPath : Nat := 4095

/-- The folder above the first of a chain of folders, each of which is in the next. Nothing is above
the last. -/
def upwards : List Folder → List Folder
  | _ :: above :: more => above :: more
  | chain => chain

/-- The bytes of the file that some names lead to from a chain of folders, each of which is in the
next. -/
def follow (chain : List Folder) : List Text → Except ReadFailure ByteArray
  | [] => .error .isFolder
  | name :: rest =>
    if name = [] || name = ['.'] then follow chain rest
    else if name = ['.', '.'] then follow (upwards chain) rest
    else if longestName < Text.byteLength name then .error .nameTooLong
    else match (chain.headD []).lookup name with
      | none => .error .notFound
      | some (.folder entries) => follow (entries :: chain) rest
      | some (.file bytes) => if rest = [] then .ok bytes else .error .notFolder

/-- The text of the file that a path leads to from a chain of folders, each of which is in the next. -/
def fileText (chain : List Folder) (path : Text) : Except ReadFailure Text :=
  if path = [] then .error .notFound
  else if longestPath < Text.byteLength path then .error .nameTooLong
  else
    let start := if path.head? = some '/' then [chain.getLastD []] else chain
    follow start (Text.pieces '/' path) >>= textOfBytes

/-- A terminal with the files in a chain of folders, of which the first is the one it is in. -/
def Terminal.onFolders {m : Type → Type} [Monad m] (t : Terminal m) (chain : List Folder) :
    Terminal m :=
  { t with file := fun path => return fileText chain path }

end LittleMan.CommandLine
