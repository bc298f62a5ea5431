import Galley.FileSystem.Ensure
import Galley.Machine
import Galley.Settings.Basic

/-!
Workspaces: the scratch directory in which jobs and artifacts are made, and the directory in which
scratch files are kept when they are asked for.
-/

namespace Galley

/-- A workspace. -/
structure Workspace where
  /-- The canonical path of the scratch directory. -/
  directory : Path
  /-- Where scratch files are kept before they are deleted. -/
  debugDirectory : Option Path
deriving DecidableEq, Repr

namespace Workspace

def ensureDirectory (p : Path) : Attempt Unit :=
  ExceptT.mk do
    return (← Machine.changePartly (·.ensureDirectory p)).mapError fun fault =>
      .workspace p fault.message

/-- The canonical path of a directory, made when it is not there. -/
def ensureCanonicalDirectory (p : Path) : Attempt Path := do
  ensureDirectory p
  match (← Machine.getFiles).canonicalDirectory p with
  | .ok directory => return directory
  | .error fault => throw (.workspace p fault.message)

/-- Open a workspace, and make its directories when they are not there. -/
def openAt (directory : Path) (debugDirectory : Option Path) : Attempt Workspace := do
  let directory ← ensureCanonicalDirectory directory
  if let some debug := debugDirectory then ensureDirectory debug
  return { directory, debugDirectory }

def ofSettings (s : Settings) : Attempt Workspace :=
  openAt s.workingDirectory (if s.debug then some s.debugDirectory else none)

/-- Make the scratch directory again when it is gone. -/
def ensure (w : Workspace) : Attempt Unit := ensureDirectory w.directory

/-- Where the artifact of an input goes: its stem and the format, in the scratch directory. -/
def outputPath (w : Workspace) (input : Path) (format : String) : Path :=
  w.directory.join (input.stem?.getD "" ++ "." ++ format)

end Workspace

end Galley
