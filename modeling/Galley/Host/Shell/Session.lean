import Galley.FileSystem.Access
import Galley.Host.Shell.Script

/-!
The state of a shell, and the streams to which its commands write.
-/

namespace Galley.Host.Shell

/-- Where what a command writes ends up. -/
inductive Sink where
  | stdout
  | stderr
  /-- What the next command of a pipeline reads. -/
  | pipe
  | file (path : Path)
deriving DecidableEq, Repr

/-- The state of a shell. What was written is kept in pieces, of which the last comes first. -/
structure Session where
  files : FileSystem
  directory : Path
  /-- The values of variables by name. -/
  values : List (String × String)
  /-- What stands for the script among its arguments. -/
  name : String
  arguments : List String
  /-- The milliseconds after which the run is stopped. -/
  timeLimit : Option Nat := none
  stdin : Text.Bytes := []
  stdout : List Text.Bytes := []
  stderr : List Text.Bytes := []
  pipe : List Text.Bytes := []
  /-- Where the first stream that commands write to goes, and the second. -/
  sinks : Sink × Sink := (.stdout, .stderr)
  status : Nat := 0
  /-- The milliseconds that passed. -/
  slept : Nat := 0
  /-- Whether the loop around is being left, for good or for its next turn. -/
  leaving : Option Bool := none
  /-- How the run ended, if it ended; without a code, a signal ended it. -/
  ended : Option (Option Nat) := none

abbrev Effect := StateM Session

def processNumber : String := "4242"

namespace Session

def get? (s : Session) (name : String) : Option String :=
  if name = "$" then some processNumber
  else if name = "?" then some (toString s.status)
  else if name = "#" then some (toString s.arguments.length)
  else if name = "@" || name = "*" then some (" ".intercalate s.arguments)
  else if name = "0" then some s.name
  else
    match name.toNat?, name.toList with
    | some n, _ => s.arguments[n - 1]?
    | none, '#' :: name =>
      some (toString ((s.values.lookup (String.ofList name)).getD "").length)
    | none, _ => s.values.lookup name

def put (s : Session) (name value : String) : Session :=
  { s with values := (name, value) :: s.values.filter (·.1 ≠ name) }

def isOverdue (s : Session) : Bool := s.timeLimit.any (· ≤ s.slept)

/-- Whether no further step is run. -/
def isStopped (s : Session) : Bool := s.ended.isSome || s.leaving.isSome || s.isOverdue

def sink (s : Session) (stream : Nat) : Sink := if stream = 2 then s.sinks.2 else s.sinks.1

def withSink (s : Session) (stream : Nat) (sink : Sink) : Session :=
  { s with sinks := if stream = 2 then (s.sinks.1, sink) else (sink, s.sinks.2) }

def write (s : Session) (stream : Nat) (bytes : Text.Bytes) : Session :=
  match s.sink stream with
  | .stdout => { s with stdout := bytes :: s.stdout }
  | .stderr => { s with stderr := bytes :: s.stderr }
  | .pipe => { s with pipe := bytes :: s.pipe }
  | .file path =>
    let old := ((s.files.read path).toOption).getD []
    { s with files := ((s.files.write path (old ++ bytes)).toOption).getD s.files }

def content? (s : Session) (path : String) : Option Text.Bytes :=
  if path = "/dev/null" then some []
  else (s.files.read (s.directory.join path)).toOption

end Session

namespace Effect

def say (text : String) : Effect Unit := modify (·.write 1 (Text.Utf8.encode text))

def emit (bytes : Text.Bytes) : Effect Unit := modify (·.write 1 bytes)

def complain (text : String) : Effect Unit := modify (·.write 2 (Text.Utf8.encode text))

def leave (status : Nat) : Effect Unit := modify ({ · with status })

def succeedIf (success : Bool) : Effect Unit := leave (if success then 0 else 1)

def exhaust : Effect Unit := modify fun s => { s with slept := max s.slept (s.timeLimit.getD 0) }

/-- Run something of which the rest sees what was written and the files, but no variable. -/
def apart (body : Effect Unit) : Effect Unit := do
  let outer ← get
  body
  modify fun inner =>
    let killed := inner.ended = some none
    { inner with
      directory := outer.directory
      values := outer.values
      arguments := outer.arguments
      sinks := outer.sinks
      leaving := none
      ended := if killed then some none else outer.ended
      status := (inner.ended.bind id).getD inner.status }

def collect (body : Effect Unit) : Effect Text.Bytes := do
  let outer ← get
  set { outer with pipe := [], sinks := (.pipe, outer.sinks.2) }
  apart body
  let inner ← get
  set { inner with pipe := outer.pipe, sinks := outer.sinks }
  return inner.pipe.reverse.flatten

end Effect

end Galley.Host.Shell
