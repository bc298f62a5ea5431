import Galley.Text.Quoted

/-!
Events: what a run reports while it works. An event is data; its level, its topic and its message
are read off it.
-/

namespace Galley

/-- How important an event is. -/
inductive Level where
  | trace
  | debug
  | warn
deriving DecidableEq, Repr

def Level.name : Level → String
  | .trace => "TRACE"
  | .debug => "DEBUG"
  | .warn => "WARN"

/-- What can be reported. Paths are given as they are shown. -/
inductive Event where
  /-- A template calls a denied function. -/
  | callRejected (function : String)
  /-- A text has nothing to render. -/
  | renderSkipped (template : String)
  | renderStarted (template : String) (bindings : Nat)
  /-- A data import names nothing that can be injected. -/
  | dataUnbound (name : String)
  | importAbsolute (path : String)
  | importUnresolved (path candidate reason : String)
  | importMissing (path : String)
  | importProtected (path target : String)
  | importUnreadable (target reason : String)
  | importDiscovered (path target : String)
  | importRedirected (path scratch : String)
  | decodedLossily (target : String)
  /-- Octets that are not text were lost because an import beside them was redirected. -/
  | redirectedLossily (target : String)
  | resolved (dependencies : Nat)
  | settingsAbsent (path : String)
  | programRejected (program fallback : String)
  /-- A timeout that counts no seconds; `setting` is shown as it was given. -/
  | timeoutRejected (setting : String) (fallback : Nat)
  | formatRejected (format fallback : String)
  /-- A format asked for in one call. -/
  | callFormatRejected (format fallback : String)
  | jobOpened (directory : String)
  | inputAllocated (path : String)
  | dependencyWritten (path : String)
  | jobRemovalFailed (directory reason : String)
  | preserved (path copy : String)
  | preserveFailed (path directory reason : String)
  | cleanupFailed (reason : String)
  | sweepFailed (path reason : String)
  | swept (entries : Nat)
  | compiling (input output : String) (dependencies : Nat)
  | commandStarted (label program arguments : String)
  | commandTimedOut (label : String) (seconds : Nat) (program arguments : String)
  | commandFailed (label : String) (exitCode : Option Int)
  | commandWarned (label text : String)
deriving DecidableEq, Repr

namespace Event

def level : Event → Level
  | .renderSkipped _ | .importUnresolved .. | .dependencyWritten _ => .trace
  | .callRejected _ | .importProtected .. | .importUnreadable .. | .redirectedLossily _
  | .programRejected .. | .timeoutRejected .. | .formatRejected .. | .callFormatRejected ..
  | .jobRemovalFailed .. | .preserveFailed .. | .cleanupFailed _ | .sweepFailed ..
  | .commandTimedOut .. => .warn
  | _ => .debug

def topic : Event → String
  | .importAbsolute _ | .importUnresolved .. | .importMissing _ | .importProtected ..
  | .importUnreadable .. | .importDiscovered .. | .importRedirected .. | .decodedLossily _
  | .redirectedLossily _ | .resolved _ => "typst::resolver"
  | .settingsAbsent _ | .programRejected .. | .timeoutRejected .. | .formatRejected .. =>
    "typst::config"
  | _ => "typst"

def message : Event → String
  | .callRejected function => "Rejected template calling '" ++ function ++ "'"
  | .renderSkipped template => "No template syntax in '" ++ template ++ "', skipping render"
  | .renderStarted template bindings =>
    "Rendering '" ++ template ++ "' with " ++ toString bindings ++ " binding(s)"
  | .dataUnbound name => "No object or array bound to '" ++ name ++ "'; emitting plain import"
  | .importAbsolute path => "Leaving absolute import '" ++ path ++ "' untouched"
  | .importUnresolved path candidate reason =>
    "Cannot resolve '" ++ path ++ "' (" ++ candidate ++ "): " ++ reason
  | .importMissing path => "Import '" ++ path ++ "' not found, leaving it for the compiler"
  | .importProtected path target =>
    "Import '" ++ path ++ "' resolves into a protected directory: " ++ target
  | .importUnreadable target reason => "Skipping unreadable import " ++ target ++ ": " ++ reason
  | .importDiscovered path target => "Discovered '" ++ path ++ "' -> " ++ target
  | .importRedirected path scratch => "Rewriting '" ++ path ++ "' -> '" ++ scratch ++ "'"
  | .decodedLossily target => target ++ " is not valid UTF-8, scanning a lossy copy"
  | .redirectedLossily target =>
    "Rewrote imports of non-UTF-8 file " ++ target ++ "; invalid bytes were replaced"
  | .resolved dependencies => "Resolved " ++ toString dependencies ++ " dependency file(s)"
  | .settingsAbsent path => "No config file at " ++ path
  | .programRejected program fallback =>
    "Rejected binary path " ++ Text.Quoted.quote program ++ "; using '" ++ fallback ++ "'"
  | .timeoutRejected setting fallback =>
    "Rejected timeout " ++ setting ++ "; using " ++ toString fallback ++ "s"
  | .formatRejected format fallback | .callFormatRejected format fallback =>
    "Rejected format " ++ Text.Quoted.quote format ++ "; using '" ++ fallback ++ "'"
  | .jobOpened directory => "Opened job directory " ++ directory
  | .inputAllocated path => "Allocated input file " ++ path
  | .dependencyWritten path => "Wrote dependency " ++ path
  | .jobRemovalFailed directory reason =>
    "Failed to remove job directory " ++ directory ++ ": " ++ reason
  | .preserved path copy => "Preserved " ++ path ++ " as " ++ copy
  | .preserveFailed path directory reason =>
    "Failed to preserve " ++ path ++ " in " ++ directory ++ ": " ++ reason
  | .cleanupFailed reason => "Cleanup failed: " ++ reason
  | .sweepFailed path reason => "Failed to purge " ++ path ++ ": " ++ reason
  | .swept entries => "Purged " ++ toString entries ++ " stale scratch entries"
  | .compiling input output dependencies =>
    "Compiling " ++ input ++ " -> " ++ output ++ " (" ++ toString dependencies ++
      " dependency file(s))"
  | .commandStarted label program arguments =>
    "(" ++ label ++ ") Executing command: " ++ program ++ " " ++ arguments
  | .commandTimedOut label seconds program arguments =>
    "(" ++ label ++ ") Command timed out after " ++ toString seconds ++ " seconds: " ++ program ++
      " " ++ arguments
  | .commandFailed label exitCode =>
    "(" ++ label ++ ") Command failed with exit code: " ++
      match exitCode with
      | some code => "Some(" ++ toString code ++ ")"
      | none => "None"
  | .commandWarned label text => "(" ++ label ++ ") " ++ text

end Event

/-- A result with the events reported on the way to it. -/
structure Logged (α : Type) where
  value : α
  events : List Event

namespace Logged

instance : Monad Logged where
  pure value := ⟨value, []⟩
  bind first next := ⟨(next first.value).value, first.events ++ (next first.value).events⟩

def report (event : Event) : Logged Unit := ⟨(), [event]⟩

def reportAll (events : List Event) : Logged Unit := ⟨(), events⟩

end Logged

end Galley
