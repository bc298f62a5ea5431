import Galley.Dependency.Graph
import Galley.Host.Shell.Run

/-!
Fake compilers: shell scripts that stand for the compiler in tests, and what a shell does that runs
one of them. Each writes down its arguments first.
-/

namespace Galley.Testing

/-- A fake compiler. -/
inductive FakeCompiler where
  /-- Copy the input to the output, and append the dependencies next to the input. -/
  | echo
  /-- Sleep when the input holds a marker, then fail when a dependency that the input imports is
  not next to it, and else do as `echo`. -/
  | checkImports (marker : String) (seconds : Nat)
  /-- Write a text to the error stream and exit. -/
  | fail (exitCode : Int) (stderr : String)
  /-- Sleep, and write nothing. -/
  | hang (seconds : Nat)
  /-- Write nothing. -/
  | silent
deriving DecidableEq, Repr

namespace FakeCompiler

def scriptName : String := "compile"

def argumentsFile : String := "last_args.txt"

private def recordPart : String :=
  "printf '%s\\n' \"$0\" \"$@\" > " ++ argumentsFile ++ "\n"

private def echoPart : String :=
  "cp \"$1\" \"$2\"\n" ++
  "for f in \"$(dirname \"$1\")\"/imported_*; do\n" ++
  "  [ -f \"$f\" ] || continue\n" ++
  "  printf '\\n=== %s\\n' \"$(basename \"$f\")\" >> \"$2\"\n" ++
  "  cat \"$f\" >> \"$2\" 2>/dev/null || true\n" ++
  "done\n"

private def checkPart : String :=
  "dir=$(dirname \"$1\")\n" ++
  "for name in $(sed -n 's/^#import \"\\(imported_[^\"]*\\)\".*/\\1/p' \"$1\"); do\n" ++
  "  if [ ! -f \"$dir/$name\" ]; then\n" ++
  "    echo \"missing $name\" >&2\n" ++
  "    exit 7\n" ++
  "  fi\n" ++
  "done\n"

def withLineEnd (text : String) : String :=
  if text.toList.getLast? = some '\n' then text else text ++ "\n"

private def bodyPart : FakeCompiler → String
  | .echo => echoPart
  | .checkImports marker seconds =>
    "if grep -qF '" ++ marker ++ "' \"$1\"; then sleep " ++ toString seconds ++ "; fi\n" ++
      checkPart ++ echoPart
  | .fail exitCode stderr =>
    "cat >&2 <<'TYPST_PREP_EOF'\n" ++ withLineEnd stderr ++ "TYPST_PREP_EOF\nexit " ++
      toString exitCode ++ "\n"
  | .hang seconds => "exec sleep " ++ toString seconds ++ "\n"
  | .silent => "exit 0\n"

def script (c : FakeCompiler) : String := "#!/bin/sh\n" ++ recordPart ++ bodyPart c

/-! ## What a shell does with a script -/

/-- Leave the files as they are when a change is refused. -/
private def attempt (fs : FileSystem) (change : Except OsError FileSystem) : FileSystem :=
  (change.toOption).getD fs

def dependenciesBeside (fs : FileSystem) (input : Path) : List Path :=
  let directory := input.parent?.getD ⟨""⟩
  match fs.find directory with
  | .error _ => []
  | .ok place =>
    let names := (fs.names place).filter fun name =>
      Text.startsWith Dependency.scratchStart.toList name.toList
    (names.mergeSort.map directory.join).filter fs.isFile

private def appended (fs : FileSystem) (p : Path) : Text.Bytes :=
  Text.Utf8.encode ("\n=== " ++ p.fileName ++ "\n") ++ ((fs.read p).toOption).getD []

/-- Copy the input to the output and append the dependencies. A directory takes a copy of the input
and nothing else. -/
def runEcho (fs : FileSystem) (input output : Path) : Outcome × FileSystem :=
  let complaint (text : String) : Outcome := .exited (some 0) [] (Text.Utf8.encode text)
  match fs.read input with
  | .error e => (complaint ("cp: cannot stat '" ++ input.text ++ "': " ++ e.words ++ "\n"), fs)
  | .ok content =>
    if fs.isDirectory output then
      (.exited (some 0) [] [], attempt fs (fs.write (output.join input.fileName) content))
    else
      match fs.write output (content ++ (dependenciesBeside fs input).flatMap (appended fs)) with
      | .ok fs => (.exited (some 0) [] [], fs)
      | .error e =>
        (complaint ("cp: cannot create regular file '" ++ output.text ++ "': " ++ e.words ++ "\n"),
          fs)

def importedNames (text : List Char) : List (List Char) :=
  let start := "#import \"".toList
  let nameOf (line : List Char) : Option (List Char) := do
    let rest ← Text.dropStart? start line
    let (name, _) ← Text.splitAtFirst? ['"'] rest
    if Text.startsWith Dependency.scratchStart.toList name then some name else none
  let isGap (c : Char) : Bool := c == ' ' || c == '\t'
  (((Text.splitOnChar (· == '\n') text).filterMap nameOf).flatMap (Text.splitOnChar isGap)).filter
    (!·.isEmpty)

/-- The first dependency that an input imports and that is not next to it. -/
def missing? (fs : FileSystem) (input : Path) : Option String :=
  let text := Text.Utf8.decodeLossy (((fs.read input).toOption).getD [])
  let directory := input.parent?.getD ⟨""⟩
  ((importedNames text.toList).map String.ofList).find? fun name => !fs.isFile (directory.join name)

/-- What a shell does that runs the script of a fake compiler in a directory. -/
def run (c : FakeCompiler) (directory : Path) (arguments : List String) (fs : FileSystem) :
    Outcome × FileSystem :=
  let lines := arguments.flatMap fun a => Text.Utf8.encode (a ++ "\n")
  let fs := attempt fs (fs.write (directory.join argumentsFile) lines)
  let input : Path := ⟨(arguments[1]?).getD ""⟩
  let output : Path := ⟨(arguments[2]?).getD ""⟩
  match c with
  | .echo => runEcho fs input output
  | .checkImports _ _ =>
    match missing? fs input with
    | some name => (.exited (some 7) [] (Text.Utf8.encode ("missing " ++ name ++ "\n")), fs)
    | none => runEcho fs input output
  | .fail exitCode stderr =>
    (.exited (some (exitCode.emod 256)) [] (Text.Utf8.encode (withLineEnd stderr)), fs)
  | .hang _ | .silent => (.exited (some 0) [] [], fs)

/-- A shell that knows the scripts of some fake compilers. Other scripts find no variables. -/
def shell (known : List FakeCompiler) : Host.Program := fun c fs =>
  let directory := c.directory.getD ⟨""⟩
  let scriptText := (c.arguments.head?.bind fun name => (fs.readText (directory.join name)).toOption)
  match known.find? fun compiler => some compiler.script = scriptText with
  | some compiler => compiler.run directory c.arguments fs
  | none => Host.Shell.program ⟨[]⟩ c fs

end FakeCompiler

end Galley.Testing
