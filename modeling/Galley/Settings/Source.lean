import Galley.Settings.Update
import Galley.Toml.Parser
import Galley.Value.Basic

/-!
Where updates come from: records and lists of values, documents and the environment. They agree on
the names and on the order of the fields, and a field of the wrong kind spoils the whole update; the
time limit alone may be of any kind, as long as no number in it is wider than 64 bits.
-/

namespace Galley.Settings

/-- A field of a source, by its kind. -/
inductive Setting where
  | text (s : String)
  | seconds (n : Int)
  | flag (b : Bool)
  | texts (items : List String)
  | other
  /-- Something of another kind that is or holds a number of more than 64 bits. -/
  | wide
deriving DecidableEq, Repr

namespace Setting

def text? : Setting → Option String
  | .text s => some s
  | _ => none

def flag? : Setting → Option Bool
  | .flag b => some b
  | _ => none

def texts? : Setting → Option (List String)
  | .texts items => some items
  | _ => none

def timeout? : Setting → Option TimeoutSetting
  | .seconds n => some (.seconds n)
  | .text s => some (.text s)
  | .wide => none
  | _ => some .other

end Setting

private def optional? {α : Type} (kind? : Setting → Option α) : Option Setting → Option (Option α)
  | none => some none
  | some setting => (kind? setting).map some

/-- The update whose fields `field?` finds by name, unless one is of the wrong kind. -/
def Update.ofFields? (field? : String → Option Setting) : Option Update := do
  let text? (name : String) := optional? Setting.text? (field? name)
  return {
    program := ← text? "bin_path"
    workingDirectory := ← text? "working_directory"
    timeout := ← optional? Setting.timeout? (field? "timeout")
    format := ← text? "format"
    fontPaths := ← optional? Setting.texts? (field? "font_paths")
    root := ← text? "root"
    basePath := ← text? "base_path"
    debug := ← optional? Setting.flag? (field? "debug")
    debugDirectory := ← text? "debug_directory" }

/-- A value as a field; null is none. -/
def Setting.ofValue? : Value → Option Setting
  | .null => none
  | .bool b => some (.flag b)
  | .string s => some (.text s)
  | .number (.int i) => some (if Number.fitsSigned i then .seconds i else .other)
  | .list items =>
    let text? : Value → Option String
      | .string s => some s
      | _ => none
    some ((items.mapM text?).elim .other .texts)
  | _ => some .other

def fieldNames : List String :=
  ["bin_path", "working_directory", "timeout", "format", "font_paths", "root", "base_path", "debug",
    "debug_directory"]

/-- The update in a value: a record of fields by name, or a list of all of them in order. -/
def Update.ofValue? : Value → Option Update
  | .record fields => ofFields? fun name => (Record.get? fields name).bind Setting.ofValue?
  | .list items =>
    if items.length = fieldNames.length then
      ofFields? fun name => ((fieldNames.zip items).lookup name).bind Setting.ofValue?
    else none
  | _ => none

mutual

/-- Whether a value of a document is or holds a number of more than 64 bits. -/
def isWide : Toml.Value → Bool
  | .int i => !(Number.fitsSigned i || Number.fitsUnsigned i)
  | .list items => anyWide items
  | .table fields => anyWideField fields
  | _ => false

def anyWide : List Toml.Value → Bool
  | [] => false
  | v :: rest => isWide v || anyWide rest

def anyWideField : List (String × Toml.Value) → Bool
  | [] => false
  | (_, v) :: rest => isWide v || anyWideField rest

end

def Setting.ofToml : Toml.Value → Setting
  | .string s => .text s
  | .int i => if Number.fitsSigned i then .seconds i else if isWide (.int i) then .wide else .other
  | .bool b => .flag b
  | .list items =>
    let text? : Toml.Value → Option String
      | .string s => some s
      | _ => none
    (items.mapM text?).elim (if anyWide items then .wide else .other) .texts
  | .table fields => if anyWideField fields then .wide else .other
  | _ => .other

def Update.ofDocument? (text : String) : Option Update := do
  let fields ← Toml.parse? text
  ofFields? fun name => (fields.lookup name).map Setting.ofToml

/-- The failure of a document that is no update. -/
def documentFault : String := "Failed to parse typst-prep configuration"

/-- A text that says yes or no. -/
def flagOfText? (text : String) : Option Bool :=
  let word := String.ofList ((Text.trim text).toList.map Char.toLower)
  if ["1", "true", "yes", "on"].contains word then some true
  else if ["0", "false", "no", "off"].contains word then some false
  else none

def Update.ofEnvironment (env : Environment) : Update :=
  let nonempty? (name : String) := (env.get? name).filter (!·.isEmpty)
  { program := nonempty? "TYPST_BIN_PATH"
    workingDirectory := nonempty? "TYPST_WORKING_DIR"
    timeout := (nonempty? "TYPST_TIMEOUT").map .text
    format := nonempty? "TYPST_FORMAT"
    fontPaths := (nonempty? "TYPST_FONT_PATHS").map fun text =>
      (Text.splitOnChar (· == ':') text.toList).map String.ofList
    root := env.get? "TYPST_ROOT"
    basePath := nonempty? "TYPST_BASE_PATH"
    debug := (nonempty? "TYPST_DEBUG").bind flagOfText?
    debugDirectory := nonempty? "TYPST_DEBUG_DIR" }

end Galley.Settings
