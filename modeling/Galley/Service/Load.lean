import Galley.Service.Basic
import Galley.Settings.Source

/-!
Loading: the settings of a service are the defaults of the current directory, then those of a
document, then those of the environment.
-/

namespace Galley.Service

def readUpdate (fs : FileSystem) (p : Path) : Except Failure Settings.Update :=
  match fs.readText p with
  | .error e => .error (.settings ("Failed to read config file: " ++ p.text ++ ": " ++ e.message))
  | .ok text =>
    match Settings.Update.ofDocument? text with
    | some u => .ok u
    | none =>
      .error (.settings ("Invalid config file: " ++ p.text ++ ": " ++ Settings.documentFault))

/-- The settings after those of a document. A document that is not there says nothing. -/
def loadDocument (s : Settings) (p : Path) : Attempt Settings := do
  let fs ← Machine.getFiles
  if fs.pathExists p then
    let u ← Attempt.of (readUpdate fs p)
    Attempt.lift (Machine.absorb (s.applyLogged (← get).environment u))
  else
    Machine.report (.settingsAbsent p.text)
    return s

def loadSettings (document : Option Path) : Attempt Settings := do
  let start := Settings.default (Path.ofLocation (← Machine.getFiles).current)
  let s ←
    match document with
    | some p => loadDocument start p
    | none => pure start
  let env := (← get).environment
  Attempt.lift (Machine.absorb (s.applyLogged env (.ofEnvironment env)))

def load (document : Option Path) : Attempt Service := do create (← loadSettings document)

end Galley.Service
