import Galley.Compiler.Execution
import Galley.Service.Basic
import Galley.Workspace.Job

/-!
Compilation: a source is prepared, written into a job with all it imports, and handed to the
compiler. The job is dropped whichever way this ends. The artifact stays where the compiler put it,
or is read and deleted.
-/

namespace Galley.Service

/-- What one call asks for beyond the settings. -/
structure Options where
  /-- The format, when it is acceptable. -/
  format : Option String := none
  root : Option Path := none
  /-- Font directories after those of the settings. -/
  fontPaths : List Path := []
  /-- Where the imports of a source are seen from. -/
  directory : Option Path := none
deriving DecidableEq, Repr

def Options.effectiveFormat (o : Options) (s : Settings) : String :=
  match o.format with
  | some format => if Settings.isSafeFormat format then format else s.format
  | none => s.format

def Options.formatEvents (o : Options) (s : Settings) : List Event :=
  (o.format.toList.filter (!Settings.isSafeFormat ·)).map (.callFormatRejected · s.format)

/-- The format of a call, reported when it is not the one asked for. -/
def Options.formatLogged (o : Options) (s : Settings) : Logged String :=
  ⟨o.effectiveFormat s, o.formatEvents s⟩

def Options.effectiveRoot (o : Options) (s : Settings) : Path := o.root.getD s.effectiveRoot

def command (s : Settings) (o : Options) (w : Workspace) (input output : Path) : Command :=
  { ((Command.compile s.program input output).withRoot (o.effectiveRoot s)).withFontPaths
      (s.fontPaths ++ o.fontPaths) with
    directory := some w.directory
    timeLimit := s.timeLimit?.map (1000 * ·)
    label := input.fileName }

/-- Write dependencies into a job. The job that comes back knows all that was written. -/
def writeDependencies (job : Workspace.Job) :
    List Dependency.ResolvedFile → Run (Workspace.Job × Except Failure Unit)
  | [] => return (job, .ok ())
  | file :: rest => do
    match ← (job.writeDependency file.entry.scratch file.content).run with
    | .ok job => writeDependencies job rest
    | .error e => return (job, .error e)

def materialize (job : Workspace.Job) (r : Dependency.Resolution) :
    Run (Workspace.Job × Except Failure Unit) := do
  match ← writeDependencies job r.files with
  | (job, .error e) => return (job, .error e)
  | (job, .ok ()) =>
    match ← (job.writeInput r.entrypoint).run with
    | .ok job => return (job, .ok ())
    | .error e => return (job, .error e)

def invoke (s : Settings) (o : Options) (job : Workspace.Job) (dependencies : Nat)
    (output : Option Path) : Attempt Path := do
  let format ← Attempt.lift (Machine.absorb (o.formatLogged s))
  let output := output.getD (job.workspace.outputPath job.inputPath format)
  Machine.report (.compiling job.inputPath.text output.text dependencies)
  let _ ← (command s o job.workspace job.inputPath output).execute
  return output

def runJob (s : Settings) (o : Options) (job : Workspace.Job) (r : Dependency.Resolution)
    (output : Option Path) : Run (Workspace.Job × Except Failure Path) := do
  match ← materialize job r with
  | (job, .error e) => return (job, .error e)
  | (job, .ok ()) => return (job, ← (invoke s o job r.files.length output).run)

/-- Prepare a source and open a job for it. -/
def openJob (s : Settings) (source : String) (bindings : Record) (directory : Option Path) :
    Attempt (Dependency.Resolution × Workspace.Job) := do
  let resolution ← preprocess s source bindings directory
  let workspace ← Workspace.ofSettings s
  return (resolution, ← workspace.begin)

/-- Compile a source up to where its job is dropped. -/
def compileJob (s : Settings) (source : String) (bindings : Record) (directory : Option Path)
    (output : Option Path) (o : Options) : Attempt (Workspace.Job × Except Failure Path) := do
  let (resolution, job) ← openJob s source bindings directory
  runJob s o job resolution output

/-- Compile a source, whose imports are seen from a directory. The artifact goes to `output`, or
else into the scratch directory under the name of the job. -/
def compileSource (s : Settings) (source : String) (bindings : Record) (directory : Option Path)
    (output : Option Path) (o : Options) : Attempt Path := do
  let (job, result) ← compileJob s source bindings directory output o
  job.drop
  Attempt.of result

def compileToFile (service : Service) (source : String) (bindings : Record) (o : Options) :
    Attempt Path :=
  compileSource service.settings source bindings o.directory none o

def compileToBytes (service : Service) (source : String) (bindings : Record) (o : Options) :
    Attempt Text.Bytes := do
  let output ← compileSource service.settings source bindings o.directory none o
  let bytes := ((← Machine.getFiles).read output).mapError fun e =>
    Failure.outputUnreadable output e.message
  (← Workspace.ofSettings service.settings).cleanupOutput output
  Attempt.of bytes

/-- Where the artifact of a file goes that says nothing of it: next to the file, under another
extension. -/
def defaultOutput (input : Path) (format : String) : Path :=
  let candidate := input.withExtension format
  if candidate.same input then input.withExtension ("out." ++ format) else candidate

def absolute (fs : FileSystem) (p : Path) : Path := (Path.ofLocation fs.current).join p.text

def compileFile (service : Service) (input : Path) (output : Option Path) (bindings : Record)
    (o : Options) : Attempt Path := do
  let fs ← Machine.getFiles
  if !fs.isFile input then throw (.inputNotFound input)
  match fs.canonicalize input with
  | .error e => throw (.inputUnreadable input e.message)
  | .ok file =>
    match fs.readText file with
    | .error e => throw (.inputUnreadable file e.message)
    | .ok source =>
      let format ← Attempt.lift (Machine.absorb (o.formatLogged service.settings))
      let output := (output.map (absolute fs)).getD (defaultOutput file format)
      compileSource service.settings source bindings file.parent? (some output) o

end Galley.Service
