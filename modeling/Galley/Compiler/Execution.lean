import Galley.Machine
import Galley.Text.Blank

/-!
Execution of a command: how each way in which a program can end is reported and answered.
-/

namespace Galley

/-- What a command that succeeded wrote. -/
structure CommandOutput where
  stdout : String
  stderr : String
deriving DecidableEq, Repr

namespace Command

/-- The text of what a failed command said: its errors, or its output when it reported none. -/
def complaint (stdout stderr : Text.Bytes) : String :=
  Text.Utf8.decodeLossy (if stderr.isEmpty then stdout else stderr)

def result (c : Command) : Outcome → Except Failure CommandOutput
  | .absent => .error (.compilerNotFound c.program)
  | .refused reason => .error (.other ("Failed to execute " ++ c.program ++ ": " ++ reason))
  | .overran => .error (.timeout (c.timeLimit.getD 0 / 1000))
  | .exited code stdout stderr =>
    if code = some 0 then .ok ⟨Text.Utf8.decodeLossy stdout, Text.Utf8.decodeLossy stderr⟩
    else .error (.compilation code (complaint stdout stderr))

def endEvents (c : Command) : Outcome → List Event
  | .absent | .refused _ => []
  | .overran =>
    [.commandTimedOut c.label (c.timeLimit.getD 0 / 1000) c.program c.shownArguments]
  | .exited code _ stderr =>
    if code ≠ some 0 then [.commandFailed c.label code]
    else if stderr.isEmpty then []
    else [.commandWarned c.label (Text.trim (Text.Utf8.decodeLossy stderr))]

def execute (c : Command) : Attempt CommandOutput := do
  Machine.report (.commandStarted c.label c.program c.shownArguments)
  let outcome ← Machine.perform c
  Machine.reportAll (c.endEvents outcome)
  Attempt.of (c.result outcome)

end Command

end Galley
