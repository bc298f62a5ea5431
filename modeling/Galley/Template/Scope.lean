import Galley.Template.Error
import Galley.Template.Pointer

/-!
Scopes: what a name means at some place of a template. The innermost loop is asked first, its own
assignments before its variables, then the loops around it, then the assignments of the template,
and last the bindings.
-/

namespace Galley.Template

open Pointer (valueAt?)

/-- The head of a dotted path, and its tail when there is a dot. -/
def splitHead (path : List Char) : List Char × Option (List Char) :=
  match path.dropWhile (· ≠ '.') with
  | [] => (path, none)
  | _ :: rest => (path.takeWhile (· ≠ '.'), some rest)

/-- A loop at one of its rounds. -/
structure Round where
  key : Option (String × String)
  item : String
  /-- What the round is for. A loop over a text has a round for each character but a value for each
  cluster of them only. -/
  value : Option Value
  index : Nat
  count : Nat

/-- A loop with the assignments of its round. -/
structure Frame where
  assigned : Record
  round : Round

/-- What names mean: the loops, innermost first, the assignments of the template and the bindings. -/
structure Scope where
  frames : List Frame
  assigned : Record
  bindings : Record

def namedAt? (fields : Record) (path : List Char) : Option Value :=
  match splitHead path with
  | (head, none) => fields.get? (String.ofList head)
  | (head, some tail) => (fields.get? (String.ofList head)).bind (valueAt? · tail)

/-- The value of a path among the variables of a loop. Below the name `loop` there is nothing but
where the loop stands, whatever the loop calls its values. -/
def Round.at? (r : Round) (path : List Char) : Option Value :=
  match r.key with
  | some (name, key) => if String.ofList path = name then some (.string key) else ofItem
  | none => ofItem
where
  nat (n : Nat) : Option Value := some (.number (.int n))
  ofItem : Option Value :=
    let (head, tail) := splitHead path
    if head = "loop".toList then
      match String.ofList (tail.getD []) with
      | "index" => nat (r.index + 1)
      | "index0" => nat r.index
      | "first" => some (.bool (r.index = 0))
      | "last" => some (.bool (r.index + 1 = r.count))
      | _ => none
    else if String.ofList head = r.item then r.value.bind (valueAt? · (tail.getD []))
    else none

def Frame.at? (f : Frame) (path : List Char) : Option Value :=
  namedAt? f.assigned path <|> f.round.at? path

namespace Scope

def at? (s : Scope) (path : List Char) : Option Value :=
  s.frames.findSome? (·.at? path) <|> namedAt? s.assigned path <|> namedAt? s.bindings path

/-- The scope after an assignment, in the innermost loop or for the whole template. -/
def assign (s : Scope) (everywhere : Bool) (name : String) (value : Value) : Scope :=
  match s.frames with
  | frame :: frames =>
    if everywhere then { s with assigned := s.assigned.put name value }
    else { s with frames := { frame with assigned := frame.assigned.put name value } :: frames }
  | [] => { s with assigned := s.assigned.put name value }

end Scope

/-- Whether an index is a place in a list as it is written: digits that are below `2 ^ 64`. -/
def isPlace (index : List Char) : Bool :=
  !index.isEmpty && index.all Char.isDigit &&
    index.foldl (fun n c => n * 10 + (c.toNat - 0x30)) 0 < Nat.pow 2 64

/-- The indices in the outermost brackets of a path, strings and places excepted. `depth` counts the
brackets that are open, `index` holds what was read of the current one, in reverse. The first character
of an index opens and closes nothing. -/
def indices (depth : Nat) (index : List Char) : List Char → List (List Char)
  | [] => []
  | c :: rest =>
    if depth = 0 then
      if c = '[' then
        match rest with
        | first :: rest =>
          if first = '"' || first = '\'' then indices 0 [] rest else indices 1 [first] rest
        | [] => []
      else indices 0 [] rest
    else if c = ']' && depth = 1 then
      if isPlace index.reverse then indices 0 [] rest else index.reverse :: indices 0 [] rest
    else
      let depth := if c = ']' then depth - 1 else if c = '[' then depth + 1 else depth
      indices depth (c :: index) rest

/-- A path with its first bracket around `index` replaced by a dot and a text. -/
def putIndex (index replacement path : List Char) : List Char :=
  match Text.splitAtFirst? ('[' :: index ++ [']']) path with
  | some (before, after) => before ++ '.' :: replacement ++ after
  | none => path ++ '.' :: replacement

/-- A path with the brackets that are left written as dots; strings keep double quotes, and slashes
are escaped. -/
def dotBrackets (path : List Char) : List Char :=
  let step (path : List Char) (change : String × String) : List Char :=
    Text.replaceAll change.1.toList change.2.toList path
  [("/", "~1"), ("['", ".\""), ("[\"", ".\""), ("[", "."), ("']", "\""), ("\"]", "\""), ("]", "")].foldl
    step path

mutual

/-- The value of a path as it is written. Indices in brackets are evaluated first. -/
def Scope.resolve (s : Scope) : Nat → List Char → Except Error Value
  | 0, path => .error (.variableMissing (String.ofList path))
  | fuel + 1, path =>
    if path.contains '[' then
      match s.resolveIndices fuel path path (indices 0 [] path) with
      | .error e => .error e
      | .ok resolved =>
        let resolved := dotBrackets resolved
        match s.at? resolved with
        | some v => .ok v
        | none => .error (.elementMissing (String.ofList path) (String.ofList resolved))
    else
      match s.at? path with
      | some v => .ok v
      | none => .error (.variableMissing (String.ofList path))

/-- The path `current` with each of the indices of `path` replaced by its value. -/
def Scope.resolveIndices (s : Scope) (fuel : Nat) (path current : List Char) :
    List (List Char) → Except Error (List Char)
  | [] => .ok current
  | index :: rest =>
    match fuel with
    | 0 => .error (.variableMissing (String.ofList path))
    | fuel + 1 =>
      match s.resolve fuel index with
      | .error e => .error (.indexFailed (String.ofList path) e)
      | .ok (.string t) =>
        s.resolveIndices fuel path (putIndex index (('"' :: t.toList) ++ ['"']) current) rest
      | .ok (.number n) => s.resolveIndices fuel path (putIndex index n.text.toList current) rest
      | .ok _ => .error (.indexKind (String.ofList index) (String.ofList path))

end

/-- The value of a variable. A path has fewer nested and further indices than characters. -/
def Scope.lookup (s : Scope) (path : String) : Except Error Value :=
  s.resolve (2 * path.length + 2) path.toList

end Galley.Template
