import Galley.Path.Basic

/-!
Settings of a compilation: which program runs, where its files go, and what it may see.
-/

namespace Galley

/-- The settings. -/
structure Settings where
  /-- The compiler, searched for when it has no slash. -/
  program : String
  /-- Where jobs and artifacts are made. -/
  workingDirectory : Path
  /-- Seconds after which the compiler is stopped; zero never stops it. -/
  timeout : Nat
  /-- The format of the artifact, and its file extension. -/
  format : String
  fontPaths : List Path
  /-- What the compiler takes as its root instead of the base path. -/
  root : Option Path
  basePath : Path
  /-- Whether scratch files are kept in the debug directory. -/
  debug : Bool
  debugDirectory : Path
deriving DecidableEq, Repr, Inhabited

namespace Settings

def defaultProgram : String := "typst"

def defaultFormat : String := "pdf"

def defaultTimeout : Nat := 60

/-- The working directory under a base path that nothing else was said of. -/
def derivedWorkingDirectory (base : Path) : Path := base.join "storage/typst"

/-- The debug directory under a base path that nothing else was said of. -/
def derivedDebugDirectory (base : Path) : Path := base.join "storage/typst-debug"

/-- The settings of a project that says nothing but its base path. -/
def default (base : Path) : Settings where
  program := defaultProgram
  workingDirectory := derivedWorkingDirectory base
  timeout := defaultTimeout
  format := defaultFormat
  fontPaths := []
  root := none
  basePath := base
  debug := false
  debugDirectory := derivedDebugDirectory base

def templatesUnder (base : Path) : Path := base.join "resources/typst"

/-- Where bare imports of a source without a directory are looked for. -/
def templateRoot (s : Settings) : Path := templatesUnder s.basePath

def effectiveRoot (s : Settings) : Path := s.root.getD s.basePath

/-- The seconds after which the compiler is stopped, if it is ever stopped. -/
def timeLimit? (s : Settings) : Option Nat := if s.timeout = 0 then none else some s.timeout

end Settings

end Galley
