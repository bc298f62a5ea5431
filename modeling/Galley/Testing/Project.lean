import Galley.Settings.Basic
import Galley.Testing.FakeCompiler
import Galley.Workspace.Job

/-!
Projects for tests: a base path with templates and a scratch directory, in which a fake compiler
takes the place of the compiler.
-/

namespace Galley.Testing

/-- A project for tests. -/
structure Project where
  base : Path
deriving DecidableEq, Repr

namespace Project

def program : String := "sh"

def settings (p : Project) : Settings := { Settings.default p.base with program }

def scratchDirectory (p : Project) : Path := p.settings.workingDirectory

def debugDirectory (p : Project) : Path := p.settings.debugDirectory

def make (p : Project) (fs : FileSystem) : FileSystem × Except OsError Unit :=
  fs.makeDirectories (Settings.templatesUnder p.base)

def write (p : Project) (relative content : String) (fs : FileSystem) :
    FileSystem × Except String Path :=
  let path := p.base.join relative
  match (path.parent?.map fs.makeDirectories).getD (fs, .ok ()) with
  | (fs, .error e) => (fs, .error e.message)
  | (fs, .ok ()) =>
    match fs.write path (Text.Utf8.encode content) with
    | .ok fs => (fs, .ok path)
    | .error e => (fs, .error ("Failed to write " ++ path.text ++ ": " ++ e.message))

def install (scratch : Path) (compiler : FakeCompiler) (fs : FileSystem) :
    FileSystem × Except OsError Unit :=
  match fs.makeDirectories scratch with
  | (fs, .error e) => (fs, .error e)
  | (fs, .ok ()) =>
    match fs.write (scratch.join FakeCompiler.scriptName) (Text.Utf8.encode compiler.script) with
    | .ok fs => (fs, .ok ())
    | .error e => (fs, .error e)

/-- The lines of a text. The last may end without a line end. -/
def linesOf (text : String) : List String :=
  let pieces := Text.splitOnChar (· == '\n') text.toList
  let lines := if pieces.getLast? = some [] then pieces.dropLast else pieces
  let withoutReturn (line : List Char) : List Char :=
    if line.getLast? = some '\r' then line.dropLast else line
  lines.map fun line => String.ofList (withoutReturn line)

def lastArguments (p : Project) (fs : FileSystem) : Except String (List String) :=
  match fs.readText (p.scratchDirectory.join FakeCompiler.argumentsFile) with
  | .ok text => .ok (linesOf text)
  | .error e => .error ("Fake compiler has not run: " ++ e.message)

def namesIn (fs : FileSystem) (directory : Path) : Except OsError (List String) := do
  let place ← fs.find directory
  if fs.node? place matches some .directory then return (fs.names place).mergeSort
  else .error .notDirectory

/-- Whether a name in the scratch directory is that of a job, an entrypoint or a dependency. -/
def isScratch (p : Project) (fs : FileSystem) (name : String) : Bool :=
  let hasJobStart := Text.startsWith Workspace.jobStart.toList name.toList
  let hasInputEnd := Text.startsWith Workspace.inputEnd.toList.reverse name.toList.reverse
  (hasJobStart && (fs.isDirectory (p.scratchDirectory.join name) || hasInputEnd)) ||
    Text.startsWith Dependency.scratchStart.toList name.toList

def scratchFiles (p : Project) (fs : FileSystem) : Except OsError (List String) := do
  return (← namesIn fs p.scratchDirectory).filter (p.isScratch fs)

def debugFiles (p : Project) (fs : FileSystem) : Except OsError (List String) :=
  namesIn fs p.debugDirectory

end Project

end Galley.Testing
