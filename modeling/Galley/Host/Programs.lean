import Galley.Compiler.Command
import Galley.FileSystem.Access

/-!
The programs of a host: how a command finds the program that it names. A name without a slash is
looked up among the programs of the host; another is a path, and no file that a path leads to may be
run.
-/

namespace Galley.Host

/-- What a program does when a command runs it. -/
abbrev Program := Command → FileSystem → Outcome × FileSystem

abbrev Programs := List (String × Program)

def outcomeOfError : OsError → Outcome
  | .notFound => .absent
  | e => .refused e.message

def holdsNul (c : Command) : Bool :=
  (c.program :: c.arguments ++ (c.directory.map Path.text).toList).any
    (·.toList.contains '\x00')

def enter (fs : FileSystem) (directory : Option Path) : Except OsError Unit :=
  match directory with
  | none => .ok ()
  | some p =>
    match fs.status p with
    | .ok .directory => .ok ()
    | .ok _ => .error .notDirectory
    | .error e => .error e

def startPath (c : Command) (fs : FileSystem) : Outcome :=
  match fs.status ((c.directory.getD ⟨""⟩).join c.program) with
  | .ok _ => .refused OsError.accessDenied.message
  | .error e => outcomeOfError e

def start (programs : Programs) : Program := fun c fs =>
  if holdsNul c then (.refused "nul byte found in provided data", fs)
  else
    match enter fs c.directory with
    | .error e => (outcomeOfError e, fs)
    | .ok () =>
      match programs.lookup c.program with
      | some program => program c fs
      | none => (if c.program.toList.contains '/' then startPath c fs else .absent, fs)

end Galley.Host
