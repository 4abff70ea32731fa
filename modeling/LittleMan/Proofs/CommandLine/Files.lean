import LittleMan.CommandLine.Folder
import LittleMan.Proofs.CommandLine.Console

/-!
# Commands on files in folders

A command reads the file that its path leads to, and no other. So on a terminal that has its files in
folders it does what it does on the terminal of one file (`respond_onFolders`), and where the path
leads to no file it does nothing but to say why (`respond_unread`).
-/

namespace LittleMan.CommandLine

section Terminals
variable {m : Type → Type} [Monad m] [LawfulMonad m] {t : Terminal m} {chain : List Folder}
  {arguments : List Text} {path : Text} {command : Command} {settings : Settings}
  {failure : ReadFailure} {level : Level}

theorem load_unread (strict : Bool) (lost : fileText chain path = .error failure) :
    load (t.onFolders chain) level path strict = do
      t.logLine ("error: could not read ".toList ++ path ++ ": ".toList ++ failure.message.toList)
      return none := by
  simp [load, Terminal.onFolders, lost, Terminal.logLine]

/-- Where its path leads to no file, a command says why, and does nothing else. -/
theorem respond_unread (turns : Nat)
    (asked : Request.ofArguments arguments = .ok (.perform command path settings))
    (lost : fileText chain path = .error failure) :
    respond (t.onFolders chain) turns arguments = do
      t.logLine ("error: could not read ".toList ++ path ++ ": ".toList ++ failure.message.toList)
      return some .failure := by
  cases command <;>
    simp [respond, asked, perform, performRun, performAssemble, performCheck, load_unread _ lost]

end Terminals

section OneFile
variable {chain : List Folder} {arguments : List Text} {path : Text} {command : Command}
  {settings : Settings} {level : Level} {c : Console}

open Console

theorem load_onFolders (strict : Bool) (found : fileText chain path = .ok c.source) :
    load (terminal.onFolders chain) level path strict c = load terminal level path strict c := by
  simp only [load, bind_apply, Terminal.onFolders, found, pure_apply, file_apply]
  rfl

theorem perform_onFolders (turns : Nat) (found : fileText chain path = .ok c.source) :
    perform (terminal.onFolders chain) turns command path settings c =
      perform terminal turns command path settings c := by
  cases command with
  | run =>
    simp only [perform, performRun, bind_apply, load_onFolders _ found]
    rfl
  | assemble =>
    simp only [perform, performAssemble, bind_apply, map_apply, load_onFolders _ found]
    rfl
  | check =>
    simp only [perform, performCheck, bind_apply, map_apply, load_onFolders _ found]
    rfl

/-- A command reads the file that its path leads to, and no other. -/
theorem respond_onFolders (turns : Nat)
    (asked : Request.ofArguments arguments = .ok (.perform command path settings))
    (found : fileText chain path = .ok c.source) :
    respond (terminal.onFolders chain) turns arguments c = respond terminal turns arguments c := by
  simp only [respond, asked, bind_apply, perform_onFolders turns found]

end OneFile

end LittleMan.CommandLine
