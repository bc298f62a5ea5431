import Galley.Text.Blank
import Galley.Text.Search
import Galley.Text.Word

/-!
The gate in front of templates: a text is refused when one of its expressions calls a function that
would reach outside. Expressions run from an opening mark to the first closing mark after it; what
follows is looked at again from there.
-/

namespace Galley.Template.Gate

/-- The functions that no template may call: to run programs, to evaluate code, to reach files and
to change them. -/
def deniedFunctions : List String := [
  "exec", "system", "shell_exec", "passthru", "proc_open", "popen", "spawn",
  "eval", "assert", "include", "include_once", "require", "require_once",
  "file_get_contents", "file_put_contents", "fopen", "fwrite", "read_file", "write_file", "get_env",
  "unlink", "remove_file", "rmdir", "mkdir", "chmod", "chown", "rename", "copy", "symlink"]

def marks : List (List Char × List Char) := [
  (['\x7b', '\x7b'], ['\x7d', '\x7d']),
  (['\x7b', '!', '!'], ['!', '!', '\x7d']),
  (['\x7b', '%'], ['%', '\x7d'])]

/-- The expression that opens at the front of a text and is closed in it, and the text after it. -/
def region? (text : List Char) : Option (List Char × List Char) :=
  marks.findSome? fun (opening, closing) =>
    match Text.dropStart? opening text with
    | some rest => Text.splitAtFirst? closing rest
    | none => none

theorem length_lt_of_region? {text body rest : List Char} (h : region? text = some (body, rest)) :
    rest.length < text.length := by
  simp only [region?, List.findSome?_eq_some_iff] at h
  obtain ⟨_, ⟨opening, closing⟩, _, hm, h, _⟩ := h
  have hmem : (opening, closing) ∈ marks := by rw [hm]; simp
  split at h
  · next r hr =>
    have e := Text.dropStart?_eq_some_iff.1 hr
    have e' := Text.eq_of_splitAtFirst? h
    have ho : opening ≠ [] := by
      simp only [marks, List.mem_cons, List.not_mem_nil, or_false, Prod.mk.injEq] at hmem
      rcases hmem with ⟨rfl, _⟩ | ⟨rfl, _⟩ | ⟨rfl, _⟩ <;> simp
    have := List.length_pos_iff.2 ho
    rw [e, e']
    simp only [List.length_append]
    omega
  · simp at h

def regions (text : List Char) : List (List Char) :=
  match _h : region? text with
  | some (body, rest) => body :: regions rest
  | none =>
    match text with
    | [] => []
    | _ :: rest => regions rest
termination_by text.length
decreasing_by
  · exact length_lt_of_region? _h
  · simp

/-- A letter as it counts when case does not: small, the long s and the Kelvin sign as letters. -/
def fold (c : Char) : Char := if c = 'ſ' then 's' else if c = '\u212A' then 'k' else c.toLower

def dropName? (name text : List Char) : Option (List Char) :=
  Text.dropStart? name ((text.take name.length).map fold) |>.map fun _ => text.drop name.length

def calls (name text : List Char) : Bool :=
  match dropName? name text with
  | some rest => (rest.dropWhile Text.isBlank).head? == some '('
  | none => false

/-- The denied function that is called at the front of a text, as it is written there. -/
def calledAt? (text : List Char) : Option (List Char) :=
  (deniedFunctions.find? fun name => calls name.toList text).map fun name => text.take name.length

/-- The leftmost call of a denied function; names begin where a word does. `inWord` says whether the
text is the rest of a word. -/
def denied? (inWord : Bool) : List Char → Option (List Char)
  | [] => none
  | c :: text =>
    let found := if inWord then none else calledAt? (c :: text)
    match found with
    | some name => some name
    | none => denied? (Text.isWordChar c) text

def check (text : String) : Option String :=
  ((regions text.toList).findSome? (denied? false)).map String.ofList

end Galley.Template.Gate
