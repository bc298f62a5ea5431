import Galley.Workspace.Basic

/-!
Preservation: copies of scratch files that stay when the files are deleted. The name of a copy says
when it was made, what the file was for, and what it was called.
-/

namespace Galley.Workspace

/-- What a scratch file is for. -/
inductive Role where
  | input
  | dependency
  | output
deriving DecidableEq, Repr

def Role.name : Role → String
  | .input => "input"
  | .dependency => "dependency"
  | .output => "output"

def copyPath (debugDirectory : Path) (time : String) (role : Role) (p : Path) : Path :=
  debugDirectory.join (time ++ "_" ++ role.name ++ "_" ++ p.fileName)

/-- Copy a file into the debug directory. What is no file is passed over. -/
def preserve (debugDirectory : Path) (role : Role) (p : Path) : Run Unit := do
  if (← Machine.getFiles).isFile p then
    let target := copyPath debugDirectory (← Machine.lookAtClock) role p
    match ← Machine.change (·.copy p target) with
    | .ok () => Machine.report (.preserved p.text target.text)
    | .error e => Machine.report (.preserveFailed p.text debugDirectory.text e.message)

def preserveAll (debugDirectory : Path) (role : Role) : List Path → Run Unit
  | [] => return
  | p :: rest => do
    preserve debugDirectory role p
    preserveAll debugDirectory role rest

/-- Delete an artifact whose octets were read, and keep a copy when there is a debug directory. -/
def cleanupOutput (w : Workspace) (p : Path) : Run Unit := do
  if let some debug := w.debugDirectory then preserve debug .output p
  match (← Machine.getFiles).removeIfThere p with
  | .ok (some fs) => Machine.putFiles fs
  | .ok none => return
  | .error fault => Machine.report (.cleanupFailed fault.message)

end Galley.Workspace
