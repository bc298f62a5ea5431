import Galley.FileSystem.Access

/-!
Directories that have to be there, and files that have to be gone. A fault names the path.
-/

namespace Galley

/-- Why a directory is not there or a file is not gone. -/
inductive PathFault where
  | notMade (path : Path) (error : OsError)
  /-- Something stands there that is no directory. -/
  | blocked (path : Path)
  | notCanonical (path : Path) (error : OsError)
  | notRemoved (path : Path) (error : OsError)
deriving DecidableEq, Repr

def PathFault.message : PathFault → String
  | .notMade path e => "Failed to create directory: " ++ path.text ++ ": " ++ e.message
  | .blocked path => "Path exists but is not a directory: " ++ path.text
  | .notCanonical path e => "Failed to canonicalize " ++ path.text ++ ": " ++ e.message
  | .notRemoved path e => "Failed to remove " ++ path.text ++ ": " ++ e.message

namespace FileSystem

/-- Make a directory when nothing is there, as far as it can be made. -/
def ensureDirectory (fs : FileSystem) (p : Path) : FileSystem × Except PathFault Unit :=
  if !fs.pathExists p then
    let (fs, made) := fs.makeDirectories p
    (fs, made.mapError (.notMade p))
  else (fs, if fs.isDirectory p then .ok () else .error (.blocked p))

def canonicalDirectory (fs : FileSystem) (p : Path) : Except PathFault Path :=
  (fs.canonicalize p).mapError (.notCanonical p)

/-- The file system without a file; nothing when there was none. -/
def removeIfThere (fs : FileSystem) (p : Path) : Except PathFault (Option FileSystem) :=
  match fs.removeFile p with
  | .ok fs => .ok (some fs)
  | .error .notFound => .ok none
  | .error e => .error (.notRemoved p e)

end FileSystem

end Galley
