import Galley.Event
import Galley.FileSystem.Access
import Galley.Path.Protected
import Galley.Settings.Basic

/-!
Lookup of imports: which file an import means, seen from a directory. The answer is a canonical path,
so that a file has one name however it is written, and no file of a protected directory is found.
-/

namespace Galley.Dependency

/-- The directories of a project against which imports are read. -/
structure Roots where
  base : Path
  templates : Path
deriving DecidableEq, Repr

def Roots.ofSettings (s : Settings) : Roots := ⟨s.basePath, s.templateRoot⟩

/-- What an import begins with that is read against the base path from everywhere. -/
def packageStart : List Char := "resources/typst/".toList

/-- What looking up an import comes to. -/
inductive Lookup where
  /-- The import is empty or absolute. -/
  | refused
  /-- The path that the import stands for leads nowhere. -/
  | dangling (candidate : Path) (error : OsError)
  /-- It leads into a protected directory. -/
  | guarded (target : Path)
  /-- It leads to something that is no file. -/
  | irregular (target : Path)
  | file (target : Path)
deriving DecidableEq, Repr

namespace Lookup

/-- The path that an import stands for in a directory. Without a directory, the templates are
where it is read. -/
def candidate (roots : Roots) (directory : Option Path) (path : String) : Path :=
  if Text.startsWith packageStart path.toList then roots.base.join path
  else
    match directory.filter (!·.isEmpty) with
    | some directory => directory.join path
    | none => roots.templates.join path

def find (fs : FileSystem) (roots : Roots) (directory : Option Path) (path : String) : Lookup :=
  if path.isEmpty || (⟨path⟩ : Path).isAbsolute then .refused
  else
    let candidate := candidate roots directory path
    match fs.canonicalize candidate with
    | .error e => .dangling candidate e
    | .ok target =>
      if target.isProtected then .guarded target
      else if fs.isFile target then .file target
      else .irregular target

def target? : Lookup → Option Path
  | .file target => some target
  | _ => none

def events (path : String) : Lookup → List Event
  | .dangling candidate e => [.importUnresolved path candidate.text e.message]
  | .guarded target => [.importProtected path target.text]
  | _ => []

end Lookup

def lookup? (fs : FileSystem) (roots : Roots) (directory : Option Path) (path : String) :
    Option Path :=
  (Lookup.find fs roots directory path).target?

end Galley.Dependency
