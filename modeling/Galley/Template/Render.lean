import Galley.Failure.Basic
import Galley.Template.Detect
import Galley.Template.Expr.Limits
import Galley.Template.Gate
import Galley.Template.Node.Output
import Galley.Template.Node.Parser
import Galley.Template.Node.Trim
import Galley.Template.Suggestion

/-!
Rendering: a text passes the gate, is read as a template and printed with the bindings. A text with
nothing to render is left alone when there are no bindings.
-/

namespace Galley.Template

def evaluate (text : String) (bindings : Record) : Except Error String :=
  match Parser.template text.toList with
  | none => .error .grammar
  | some nodes =>
    match tooLargeInNodes? nodes with
    | some i => .error (.integerTooLarge i)
    | none => output (trim nodes) bindings

def render (name text : String) (bindings : Record) : Except Failure String :=
  match Gate.check text with
  | some function => .error (.rejected function)
  | none =>
    if bindings.isEmpty && !hasSyntax text then .ok text
    else
      match evaluate text bindings with
      | .ok printed => .ok printed
      | .error e => .error (.render name (Suggestion.describe e.line bindings.keys))

def renderEvents (name text : String) (bindings : Record) : List Event :=
  match Gate.check text with
  | some function => [.callRejected function]
  | none =>
    if bindings.isEmpty && !hasSyntax text then [.renderSkipped name]
    else [.renderStarted name bindings.length]

def renderLogged (name text : String) (bindings : Record) : Logged (Except Failure String) :=
  ⟨render name text bindings, renderEvents name text bindings⟩

end Galley.Template
