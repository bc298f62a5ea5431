import Galley.Dependency.Graph
import Galley.Dependency.Lookup
import Galley.Template.Render
import Galley.Typst.Import

/-!
Discovery: the files that an entrypoint imports, directly or through others. The files that were
found are visited in the order in which they were found, and each is read once, so that imports that
lead back to a file end there.
-/

namespace Galley.Dependency

/-- What discovery reads: the files, the roots of the project and the values for templates. -/
structure Surroundings where
  files : FileSystem
  roots : Roots
  bindings : Record

/-- The content of an imported file. -/
structure Content where
  /-- Its text, rendered when it is a template; its imports are looked for here. -/
  text : String
  /-- The octets of a file that is not well-formed and not a template. -/
  raw : Option Text.Bytes
deriving DecidableEq, Repr

def Content.ofBytes (bytes : Text.Bytes) : Content :=
  match Text.Utf8.decode? bytes with
  | some text => ⟨text, none⟩
  | none => ⟨Text.Utf8.decodeLossy bytes, some bytes⟩

/-- The content of a file with these octets; a template is rendered. -/
def Content.load (bindings : Record) (path : Path) (bytes : Text.Bytes) :
    ExceptT Failure Logged Content := do
  let content := ofBytes bytes
  if content.raw.isSome then Logged.report (.decodedLossily path.text)
  if Template.isTemplateFile path then
    return ⟨← ExceptT.mk (Template.renderLogged path.fileName content.text bindings), none⟩
  else return content

/-- A file that was found. -/
structure Source where
  path : Path
  /-- The import by which it was found. -/
  importedAs : String
  content : Content
deriving DecidableEq, Repr

def visit (s : Surroundings) (directory : Option Path) (found : List Source) (d : Typst.Import) :
    ExceptT Failure Logged (Option Source) := do
  let path := String.ofList d.path
  if d.isAbsolute then
    Logged.report (.importAbsolute path)
    return none
  let lookup := Lookup.find s.files s.roots directory path
  Logged.reportAll (lookup.events path)
  match lookup.target? with
  | none =>
    Logged.report (.importMissing path)
    return none
  | some target =>
    if found.any (·.path.same target) then return none
    match s.files.read target with
    | .error e =>
      Logged.report (.importUnreadable target.text e.message)
      return none
    | .ok bytes =>
      let content ← Content.load s.bindings target bytes
      Logged.report (.importDiscovered path target.text)
      return some ⟨target, path, content⟩

def visitAll (s : Surroundings) (directory : Option Path) :
    List Source → List Typst.Import → ExceptT Failure Logged (List Source)
  | found, [] => return found
  | found, d :: rest => do visitAll s directory (found ++ (← visit s directory found d).toList) rest

/-- The files found from those found so far, of which the first `visited` were visited. There are
no more visits than files, so `fuel` may be the number of files. -/
def discoverFrom (s : Surroundings) :
    (fuel visited : Nat) → List Source → ExceptT Failure Logged (List Source)
  | 0, _, found => return found
  | fuel + 1, visited, found =>
    match found[visited]? with
    | none => return found
    | some source => do
      let imports := Typst.Import.directives source.content.text
      discoverFrom s fuel (visited + 1) (← visitAll s source.path.parent? found imports)

/-- The files that an entrypoint imports, in the order in which they are found. -/
def discover (s : Surroundings) (entrypoint : String) (directory : Option Path) :
    ExceptT Failure Logged (List Source) := do
  let found ← visitAll s directory [] (Typst.Import.directives entrypoint)
  discoverFrom s (s.files.fileCount + 1) 0 found

def Graph.ofSources (found : List Source) : Graph :=
  found.foldl (fun g source => g.insert source.path source.importedAs) .empty

end Galley.Dependency
