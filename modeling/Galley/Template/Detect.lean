import Galley.Path.Basic
import Galley.Typst.DataImport

/-!
Whether a text holds anything that rendering acts on: an interpolation, a statement, a comment, or
the marks of a raw interpolation, each opened and closed, or a data import directive.
-/

namespace Galley.Template

def syntaxMarks : List (List Char × List Char) := [
  (['\x7b', '\x7b'], ['\x7d', '\x7d']),
  (['\x7b', '%'], ['%', '\x7d']),
  (['\x7b', '#'], ['#', '\x7d']),
  (['\x7b', '!', '!'], ['!', '!', '\x7d'])]

def opensAt (text : List Char) : Bool :=
  syntaxMarks.any fun (opening, closing) =>
    match Text.dropStart? opening text with
    | some rest => Text.contains closing rest
    | none => false

def hasMarks : List Char → Bool
  | [] => false
  | c :: text => opensAt (c :: text) || hasMarks text

def fileMarker : String := ".tera.typ"

/-- Whether a file is rendered before its imports are read: its name goes on before the marker. -/
def isTemplateFile (p : Path) : Bool :=
  match p.fileName? with
  | some name =>
    fileMarker.toList.isSuffixOf name.toList && fileMarker.toList.length < name.toList.length
  | none => false

def hasSyntax (text : String) : Bool := hasMarks text.toList || Typst.DataImport.occursIn text

end Galley.Template
