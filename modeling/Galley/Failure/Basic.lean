import Galley.Path.Basic

/-!
Failures: why an operation on a document ends without a result, and the message of each.
-/

namespace Galley

/-- Why an operation failed. -/
inductive Failure where
  | inputNotFound (path : Path)
  | inputUnreadable (path : Path) (reason : String)
  /-- A scratch or debug directory could not be made. -/
  | workspace (path : Path) (reason : String)
  | scratchFile (path : Path) (reason : String)
  | render (template message : String)
  | rejected (function : String)
  | compilerNotFound (program : String)
  /-- The compiler's error text; no exit code when a signal ended it. -/
  | compilation (exitCode : Option Int) (stderr : String)
  | outputUnreadable (path : Path) (reason : String)
  | timeout (seconds : Nat)
  | settings (message : String)
  | other (message : String)
deriving DecidableEq, Repr

namespace Failure

def message : Failure → String
  | .inputNotFound path => "Input file does not exist: " ++ path.text
  | .inputUnreadable path reason => "Failed to read input file: " ++ path.text ++ ": " ++ reason
  | .workspace path reason => "Failed to create working directory: " ++ path.text ++ ": " ++ reason
  | .scratchFile path reason =>
    "Failed to create temporary file in " ++ path.text ++ ": " ++ reason
  | .render _ message => "Template rendering failed: " ++ message
  | .rejected function =>
    "Dangerous function \"" ++ function ++ "\" detected in template expression"
  | .compilerNotFound program => "Typst binary could not be started: " ++ program
  | .compilation _ stderr => "Typst compilation failed: " ++ stderr
  | .outputUnreadable path reason =>
    "Failed to read compiled output file " ++ path.text ++ ": " ++ reason
  | .timeout seconds => "Typst compilation timed out after " ++ toString seconds ++ " seconds"
  | .settings message => "Configuration error: " ++ message
  | .other message => message

/-- The exit code of the compiler, when the failure carries one. -/
def exitCode : Failure → Option Int
  | .compilation code _ => code
  | _ => none

end Failure

end Galley
