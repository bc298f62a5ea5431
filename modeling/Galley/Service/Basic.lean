import Galley.Dependency.Resolution
import Galley.Settings.Update
import Galley.Typst.DataImport
import Galley.Workspace.Basic

/-!
The service: settings under which sources are prepared and compiled. Preparing renders a source,
injects the data that it asks for, and resolves its imports. Rendering comes first, so that injected
data is never read as a template.
-/

namespace Galley

/-- A service. -/
structure Service where
  settings : Settings
deriving DecidableEq, Repr

namespace Service

def entrypointName : String := "entrypoint"

def create (settings : Settings) : Attempt Service := do
  let _ ← Workspace.ofSettings settings
  return ⟨settings⟩

/-- Update the settings. The new settings stay, also when their workspace cannot be made. -/
def update (service : Service) (u : Settings.Update) : Run (Service × Except Failure Unit) := do
  let settings ← Machine.absorb (service.settings.applyLogged (← get).environment u)
  let opened ← (Workspace.ofSettings settings).run
  return (⟨settings⟩, opened.map fun _ => ())

/-- Prepare a source, whose imports are seen from a directory. Nothing is written. -/
def preprocess (settings : Settings) (source : String) (bindings : Record)
    (directory : Option Path) : Attempt Dependency.Resolution := do
  let rendered ← Attempt.absorb (Template.renderLogged entrypointName source bindings)
  let expanded := Typst.DataImport.expand rendered bindings
  Machine.reportAll (Typst.DataImport.events rendered bindings)
  let surroundings := ⟨← Machine.getFiles, .ofSettings settings, bindings⟩
  Attempt.absorb (Dependency.resolve surroundings expanded directory).run

end Service

end Galley
