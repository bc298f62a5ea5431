import Galley.Failure.Chain

/-!
Reports: a failure with advice for people. Any other error is reported by the failure in its chain,
as an access that the system refused, or by the texts of all its links.
-/

namespace Galley

/-- A failure with advice. -/
structure Report where
  failure : Failure
  suggestion : Option String := none
  details : Option String := none
deriving DecidableEq, Repr

namespace Report

def ofFailure (failure : Failure) : Report :=
  match failure with
  | .inputNotFound path => {
      failure
      suggestion := "Check the input path; relative paths resolve against the process working directory"
      details := "Looked for the entrypoint at " ++ path.text }
  | .workspace .. => {
      failure
      suggestion :=
        "Set TYPST_WORKING_DIR to a writable directory or fix the permissions of the configured one" }
  | .scratchFile .. => {
      failure
      suggestion := "Check free disk space and write permissions of the scratch directory" }
  | .render template _ => {
      failure
      suggestion :=
        "Check template syntax: variables use \x7b\x7b var \x7d\x7d, comments use \x7b# #\x7d, " ++
        "control flow uses \x7b% %\x7d. Ensure every referenced variable is present in the bindings"
      details := "Rendering failed in " ++ template }
  | .rejected _ => {
      failure
      suggestion :=
        "Remove the call from the template; template expressions may only format and iterate over " ++
        "bindings"
      details :=
        "Templates are rejected before rendering when they reference process, evaluation or " ++
        "filesystem functions" }
  | .compilerNotFound program => {
      failure
      suggestion :=
        "Install Typst from https://typst.app or point TYPST_BIN_PATH at the binary (currently '" ++
          program ++ "')" }
  | .compilation exitCode _ => {
      failure
      suggestion :=
        "Fix the reported source location; enable debug preservation to inspect the generated files"
      details :=
        match exitCode with
        | some code => "The compiler exited with status " ++ toString code
        | none => "The compiler was terminated by a signal" }
  | .timeout seconds => {
      failure
      suggestion := "Raise TYPST_TIMEOUT or simplify the document"
      details := "The compiler was terminated after " ++ toString seconds ++ " seconds" }
  | .outputUnreadable .. => {
      failure
      suggestion :=
        "The compiler reported success but produced no readable artifact; check the output format" }
  | _ => { failure }

/-- The texts numbered from `n`, a line each. -/
def numbered (n : Nat) : List String → String
  | [] => ""
  | text :: texts => "\n  " ++ toString n ++ ": " ++ text ++ numbered (n + 1) texts

/-- What the message of an error says of its causes. -/
def causeList : List String → String
  | [] => ""
  | causes => "\n\nCaused by:" ++ numbered 1 causes

/-- The report of an error. A failure anywhere in its chain comes first; a refused access counts
where nothing but contexts stands around it; else all texts are told. -/
def ofError (e : ErrorChain) : Report :=
  match e.failure? with
  | some f => ofFailure f
  | none =>
    match e.system? with
    | some (.accessDenied, message) => {
        failure := .workspace ⟨"unknown"⟩ message
        suggestion := "Check that the scratch and debug directories are writable" }
    | _ => { failure := .other (e.message ++ causeList e.causes) }

def text (r : Report) : String :=
  r.failure.message ++
  (match r.details with
    | some details => "\nDetails: " ++ details
    | none => "") ++
  (match r.suggestion with
    | some suggestion => "\nSuggestion: " ++ suggestion
    | none => "")

/-- A label in a colour of the terminal, when colours are on. -/
def label (coloured : Bool) (code name : String) : String :=
  if coloured then "\x1b[" ++ code ++ "m" ++ name ++ "\x1b[0m" else name

/-- What is shown on a terminal: a line for the failure, its details and the suggestion. -/
def display (coloured : Bool) (r : Report) : String :=
  label coloured "1;31" "error" ++ ": " ++ r.failure.message ++ "\n" ++
  (match r.details with
    | some details => label coloured "33" "details" ++ ": " ++ details ++ "\n"
    | none => "") ++
  (match r.suggestion with
    | some suggestion => label coloured "32" "suggestion" ++ ": " ++ suggestion ++ "\n"
    | none => "")

end Report

end Galley
