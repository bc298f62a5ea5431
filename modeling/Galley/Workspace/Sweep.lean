import Galley.Dependency.Graph
import Galley.FileSystem.Glob
import Galley.Workspace.Job

/-!
The sweep: it removes what runs that ended early left in the scratch directory. These are the
directories named like jobs and the files named like dependencies, also where they are links; a link
is removed and its target stays.
-/

namespace Galley.Workspace

/-- What the sweep does to one path: whether it removes it, and how. -/
structure Removal where
  /-- What the names begin with. -/
  start : String
  applies : FileSystem → Path → Bool
  remove : FileSystem → Path → Except OsError FileSystem

def jobRemoval : Removal := ⟨jobStart, FileSystem.isDirectory, FileSystem.removeTree⟩

def dependencyRemoval : Removal :=
  ⟨Dependency.scratchStart, FileSystem.isFile, FileSystem.removeFile⟩

def sweepPaths (r : Removal) : List Path → Run Nat
  | [] => return 0
  | p :: rest => do
    if r.applies (← Machine.getFiles) p then
      match ← Machine.change (r.remove · p) with
      | .ok () => return 1 + (← sweepPaths r rest)
      | .error e =>
        Machine.report (.sweepFailed p.text e.message)
        sweepPaths r rest
    else sweepPaths r rest

/-- The pattern of the names in the scratch directory that begin with `start`. -/
def sweepPattern (w : Workspace) (start : String) : String :=
  String.ofList (Glob.escape w.directory.text.toList) ++ "/" ++ start ++ "*"

def sweepFor (w : Workspace) (r : Removal) : Run Nat := do
  match Glob.paths? (← Machine.getFiles) (w.sweepPattern r.start) with
  | some paths => sweepPaths r paths
  | none => return 0

def sweep (w : Workspace) : Run Nat := do
  let jobs ← w.sweepFor jobRemoval
  let dependencies ← w.sweepFor dependencyRemoval
  Machine.report (.swept (jobs + dependencies))
  return jobs + dependencies

end Galley.Workspace
