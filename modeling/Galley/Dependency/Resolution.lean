import Galley.Dependency.Discovery

/-!
Resolutions: an entrypoint and all it imports, with every import of a file that was found pointing
at the scratch name of that file.
-/

namespace Galley.Dependency

/-- A file as the compiler gets it. -/
structure ResolvedFile where
  entry : Entry
  content : Text.Bytes
deriving DecidableEq, Repr

/-- An entrypoint with all it imports. -/
structure Resolution where
  entrypoint : String
  graph : Graph
  /-- One file for each entry of the graph, in its order. -/
  files : List ResolvedFile

def replacement? (s : Surroundings) (g : Graph) (directory : Option Path) (d : Typst.Import) :
    Option String :=
  if d.isAbsolute then none
  else (lookup? s.files s.roots directory (String.ofList d.path)).bind g.scratch?

def redirect (s : Surroundings) (g : Graph) (directory : Option Path) (text : String) : String :=
  Typst.Import.redirect text (replacement? s g directory)

def replacementEvents (s : Surroundings) (g : Graph) (directory : Option Path) (d : Typst.Import) :
    List Event :=
  let path := String.ofList d.path
  if d.isAbsolute then []
  else
    (Lookup.find s.files s.roots directory path).events path ++
      (replacement? s g directory d).toList.map (.importRedirected path)

def redirectEvents (s : Surroundings) (g : Graph) (directory : Option Path) (text : String) :
    List Event :=
  (Typst.Import.directives text).flatMap (replacementEvents s g directory)

/-- The octets of a file whose text was redirected. Octets that are not well-formed are kept when
there was nothing to redirect. -/
def emitted (content : Content) (redirected : String) : Text.Bytes :=
  match content.raw with
  | some raw => if redirected = content.text then raw else Text.Utf8.encode redirected
  | none => Text.Utf8.encode redirected

def Source.of? (found : List Source) (entry : Entry) : Option Source :=
  found.find? (·.path.same entry.source)

def resolvedFile (s : Surroundings) (g : Graph) (entry : Entry) (source : Source) : ResolvedFile :=
  ⟨entry, emitted source.content (redirect s g entry.source.parent? source.content.text)⟩

def resolvedFileEvents (s : Surroundings) (g : Graph) (entry : Entry) (source : Source) :
    List Event :=
  let text := source.content.text
  let changed := redirect s g entry.source.parent? text ≠ text
  redirectEvents s g entry.source.parent? text ++
    if source.content.raw.isSome && changed then [.redirectedLossily entry.source.text] else []

def Resolution.ofSources (s : Surroundings) (found : List Source) (entrypoint : String)
    (directory : Option Path) : Resolution :=
  let g := Graph.ofSources found
  { entrypoint := redirect s g directory entrypoint
    graph := g
    files := g.entries.filterMap fun e => (Source.of? found e).map (resolvedFile s g e) }

def Resolution.events (s : Surroundings) (found : List Source) (entrypoint : String)
    (directory : Option Path) : List Event :=
  let g := Graph.ofSources found
  g.entries.flatMap (fun e => ((Source.of? found e).map (resolvedFileEvents s g e)).getD []) ++
    redirectEvents s g directory entrypoint ++ [.resolved g.size]

def resolve (s : Surroundings) (entrypoint : String) (directory : Option Path) :
    ExceptT Failure Logged Resolution := do
  let found ← discover s entrypoint directory
  Logged.reportAll (Resolution.events s found entrypoint directory)
  return .ofSources s found entrypoint directory

end Galley.Dependency
