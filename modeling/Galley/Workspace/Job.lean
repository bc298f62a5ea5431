import Galley.Workspace.Preservation

/-!
Jobs: the private directory of one compilation. An entrypoint and its dependencies are written into
it, and all of it goes when the job is dropped.
-/

namespace Galley.Workspace

def jobStart : String := "typst_"

def inputEnd : String := ".typ"

def jobTries : Nat := 65536

/-- A job. -/
structure Job where
  workspace : Workspace
  directory : Path
  input : Option Path := none
  /-- The dependencies, in the order in which they were first written. -/
  dependencies : List Path := []
deriving DecidableEq, Repr

def messageAt (e : OsError) (p : Path) : String := e.message ++ " at path " ++ Text.Quoted.quote p.text

/-- Make a directory under a random name that is not taken. -/
def makeJobDirectory (w : Workspace) : (tries : Nat) → Run (Except String Path)
  | 0 => return .error "too many temporary directories exist"
  | tries + 1 => do
    let p := w.directory.join (jobStart ++ (← Machine.drawName))
    match ← Machine.change (·.makeDirectory p) with
    | .ok () => return .ok p
    | .error .alreadyExists => makeJobDirectory w tries
    | .error e => return .error (messageAt e p)

def begin (w : Workspace) : Attempt Job := do
  match ← w.makeJobDirectory jobTries with
  | .ok directory =>
    Machine.report (.jobOpened directory.text)
    return { workspace := w, directory }
  | .error reason => throw (.scratchFile w.directory reason)

namespace Job

/-- The files written so far, the entrypoint first. -/
def tracked (job : Job) : List Path := job.input.toList ++ job.dependencies

/-- Where the entrypoint goes. It has the name of the job, so that no two jobs share one. -/
def inputPath (job : Job) : Path := job.directory.join (job.directory.fileName ++ inputEnd)

def write (p : Path) (content : Text.Bytes) : Attempt Unit :=
  ExceptT.mk do
    return (← Machine.change (·.write p content)).mapError fun e => .scratchFile p e.message

def writeInput (job : Job) (text : String) : Attempt Job := do
  write job.inputPath (Text.Utf8.encode text)
  Machine.report (.inputAllocated job.inputPath.text)
  return { job with input := some job.inputPath }

def track (job : Job) (p : Path) : Job :=
  if job.dependencies.any (·.same p) then job
  else { job with dependencies := job.dependencies ++ [p] }

def writeDependency (job : Job) (name : String) (content : Text.Bytes) : Attempt Job := do
  let p := job.directory.join name
  write p content
  Machine.report (.dependencyWritten p.text)
  return job.track p

/-- Remove the directory of a job, after its files were preserved when there is a debug directory. -/
def drop (job : Job) : Run Unit := do
  if let some debug := job.workspace.debugDirectory then
    preserveAll debug .input job.input.toList
    preserveAll debug .dependency job.dependencies
  if let .error e ← Machine.change (·.removeTree job.directory) then
    Machine.report (.jobRemovalFailed job.directory.text (messageAt e job.directory))

end Job

end Galley.Workspace
