import Galley.Template.Pointer
import Galley.Template.Printed
import Galley.Text.Blank
import Galley.Text.Case
import Galley.Text.Quoted
import Galley.Text.Word
import Galley.Value.Printer

/-!
Filters: what can be done with a value in an expression. A filter gets the value and its named
arguments; when it cannot work on them it says why.
-/

namespace Galley.Template.Filter

abbrev Result := Except String Value

def wrongValue (filter : String) (v : Value) (expected : String) : String :=
  "Filter \x60" ++ filter ++ "\x60 was called on an incorrect value: got \x60" ++ v.compact ++
    "\x60 but expected a " ++ expected

def wrongArgument (filter argument : String) (v : Value) (expected : String) : String :=
  "Filter \x60" ++ filter ++ "\x60 received an incorrect type for arg \x60" ++ argument ++
    "\x60: got \x60" ++ v.compact ++ "\x60 but expected a " ++ expected

def missingArgument (filter argument : String) : String :=
  "Filter \x60" ++ filter ++ "\x60 expected an arg called \x60" ++ argument ++ "\x60"

def string (filter : String) : Value → Except String String
  | .string s => .ok s
  | v => .error (wrongValue filter v "String")

def list (filter : String) : Value → Except String (List Value)
  | .list items => .ok items
  | v => .error (wrongValue filter v "Vec<Value>")

/-- An argument as a string, when it is there. -/
def stringArgument? (filter argument : String) (args : Record) : Except String (Option String) :=
  match args.get? argument with
  | none => .ok none
  | some (.string s) => .ok (some s)
  | some v => .error (wrongArgument filter argument v "String")

def stringArgument (filter argument : String) (args : Record) : Except String String :=
  match stringArgument? filter argument args with
  | .ok (some s) => .ok s
  | .ok none => .error (missingArgument filter argument)
  | .error e => .error e

def onString (filter : String) (f : String → String) (v : Value) : Result :=
  (string filter v).map fun s => .string (f s)

def capitalize (s : String) : String :=
  match s.toList with
  | [] => ""
  | c :: rest => String.ofList (Text.upperChar c) ++ Text.lower (String.ofList rest)

def isTitleChar (c : Char) : Bool := Text.isWordChar c || c == '\''

/-- A text with the first letter of every word large and the others small. An apostrophe belongs to
the word around it. `inWord` says whether the character before belongs to a word. -/
def titleWords (inWord : Bool) : Nat → List Char → List Char
  | 0, text => text
  | _ + 1, [] => []
  | fuel + 1, c :: text =>
    let word := Text.dropBack (· == '\'') ((c :: text).takeWhile isTitleChar)
    match word with
    | first :: rest =>
      if Text.isWordChar c != inWord then
        Text.upperChar first ++ (Text.lower (String.ofList rest)).toList ++
          titleWords true fuel ((c :: text).drop word.length)
      else c :: titleWords (Text.isWordChar c) fuel text
    | [] => c :: titleWords (Text.isWordChar c) fuel text

def title (s : String) : String :=
  String.ofList (titleWords false (s.toList.length + 1) s.toList)

def escapeChar (c : Char) : List Char :=
  if c = '&' then "&amp;".toList
  else if c = '<' then "&lt;".toList
  else if c = '>' then "&gt;".toList
  else if c = '"' then "&quot;".toList
  else if c = '\'' then "&#x27;".toList
  else if c = '/' then "&#x2F;".toList
  else [c]

def unescapeSeparator (s : String) : List Char :=
  Text.replaceAll ['\\', 't'] ['\t'] (Text.replaceAll ['\\', 'n'] ['\n'] s.toList)

def length : Value → Result
  | .list items => .ok (.number (.int items.length))
  | .record fields => .ok (.number (.int fields.length))
  | .string s => .ok (.number (.int s.length))
  | _ => .error
    "Filter \x60length\x60 was used on a value that isn't an array, an object, or a string."

def reverse : Value → Result
  | .list items => .ok (.list items.reverse)
  | .string s => .ok (.string (String.ofList s.toList.reverse))
  | v => .error ("Filter \x60reverse\x60 received an incorrect type for arg \x60value\x60: got \x60" ++
      v.compact ++ "\x60 but expected Array|String")

/-- The magnitude of a number. The least integer of 64 bits has none of its own kind and stays. -/
def abs : Value → Result
  | .number (.int i) => .ok (.number (.int (if i = -Int.pow 2 63 then i else i.natAbs)))
  | .number (.double d) => .ok (.number (.double d.abs))
  | _ => .error "Filter \x60abs\x60 was used on a value that isn't a number."

def join (v : Value) (args : Record) : Result := do
  let items ← list "join" v
  let separator ←
    match args.get? "sep" with
    | none => pure []
    | some (.string s) => pure (unescapeSeparator s)
    | some v => .error (wrongArgument "truncate" "sep" v "String")
  return .string ((String.ofList separator).intercalate (items.map printValue))

def replace (v : Value) (args : Record) : Result := do
  let s ← string "replace" v
  let source ← stringArgument "replace" "from" args
  let target ← stringArgument "replace" "to" args
  return .string (String.ofList (Text.replaceAll source.toList target.toList s.toList))

def split (v : Value) (args : Record) : Result := do
  let s ← string "split" v
  let pattern ← stringArgument "split" "pat" args
  return .list ((Text.splitAll (unescapeSeparator pattern) s.toList).map fun piece =>
    .string (String.ofList piece))

/-- The keys by which values are sorted: of one kind each. -/
inductive SortKey where
  | bool (b : Bool)
  | number (d : Double)
  | string (s : String)
  | length (n : Nat)

/-- Whether a key may stand before another. The negative zero stands before the positive one. -/
def SortKey.le : SortKey → SortKey → Bool
  | .bool a, .bool b => !a || b
  | .number a, .number b =>
    match a.compare? b with
    | some .lt => true
    | some .eq => a.isNegative || !b.isNegative
    | _ => false
  | .string a, .string b => a ≤ b
  | .length a, .length b => a ≤ b
  | _, _ => true

def sortKey (kind : Value) (v : Value) : Except String SortKey :=
  match kind, v with
  | .bool _, .bool b => .ok (.bool b)
  | .bool _, v => .error ("expected bool got " ++ v.compact)
  | .number _, .number n => .ok (.number n.toDouble)
  | .number _, v => .error ("expected number got " ++ v.compact)
  | .string _, .string s => .ok (.string s)
  | .string _, v => .error ("expected string got " ++ v.compact)
  | .list _, .list items => .ok (.length items.length)
  | .list _, v => .error ("expected array got " ++ v.compact)
  | .null, _ => .error "Null is not a sortable value"
  | .record _, _ => .error "Object is not a sortable value"

/-- The value of an attribute; the empty one is the value itself. -/
def property (name : String) (v : Value) : Except String Value :=
  match Pointer.valueAt? v name.toList with
  | some found => .ok found
  | none => .error ("attribute '" ++ name ++ "' does not reference a field")

/-- The list sorted by an attribute; equal keys keep their order. -/
def sort (v : Value) (args : Record) : Result := do
  let items ← list "sort" v
  match items with
  | [] => return .list []
  | first :: _ =>
    let name := (← stringArgument? "sort" "attribute" args).getD ""
    let kind ← property name first
    let keyed ← items.mapM fun item => do
      let key ← sortKey kind (← property name item)
      return (key, item)
    return .list ((keyed.mergeSort fun a b => a.1.le b.1).map Prod.snd)

/-- The attributes of the items that have one that is not null. -/
def map (v : Value) (args : Record) : Result := do
  let items ← list "map" v
  if items.isEmpty then return .list []
  match ← stringArgument? "map" "attribute" args with
  | none => .error "The \x60map\x60 filter has to have an \x60attribute\x60 argument"
  | some name =>
    return .list (items.filterMap fun item =>
      match Pointer.valueAt? item name.toList with
      | some .null | none => none
      | some found => some found)

def powerOfTen (exponent : Int) : Double :=
  let rec go : Nat → Nat → Double → Double → Double
    | 0, _, _, power => power
    | fuel + 1, n, base, power =>
      let power := if n % 2 = 1 then power.mul base else power
      if n / 2 = 0 then power else go fuel (n / 2) (base.mul base) power
  let power := go 40 exponent.natAbs (.ofInt 10) (.ofInt 1)
  if exponent < 0 then (Double.ofInt 1).div power else power

/-- The number rounded to places after the point, or null where the scale leaves no number. -/
def round (v : Value) (args : Record) : Result := do
  let x ←
    match v with
    | .number n => pure n.toDouble
    | v => .error (wrongValue "round" v "f64")
  let method := (← stringArgument? "round" "method" args).getD "common"
  let places ←
    match args.get? "precision" with
    | none => pure 0
    | some (.number (.int i)) =>
      if -Int.pow 2 31 ≤ i && i < Int.pow 2 31 then pure i
      else .error (wrongArgument "round" "precision" (.number (.int i)) "i32")
    | some v => .error (wrongArgument "round" "precision" v "i32")
  let scale := if places = 0 then .ofInt 1 else powerOfTen places
  let scaled := scale.mul x
  let rounded ←
    if method = "common" then pure scaled.round
    else if method = "ceil" then pure scaled.ceil
    else if method = "floor" then pure scaled.floor
    else .error ("Filter \x60round\x60 received an incorrect value for arg \x60method\x60: got \x60" ++
      Text.Quoted.quote method ++ "\x60, only common, ceil and floor are allowed")
  let result := rounded.div scale
  return if result.isFinite then .number (.double result) else .null

/-- The filter of a name, when there is one. -/
def find? (name : String) : Option (Value → Record → Result) :=
  match name with
  | "upper" => some fun v _ => onString "upper" Text.upper v
  | "lower" => some fun v _ => onString "lower" Text.lower v
  | "trim" => some fun v _ => onString "trim" Text.trim v
  | "trim_start" => some fun v _ => onString "trim_start" Text.trimStart v
  | "trim_end" => some fun v _ => onString "trim_end" Text.trimEnd v
  | "capitalize" => some fun v _ => onString "capitalize" capitalize v
  | "title" => some fun v _ => onString "title" title v
  | "escape" => some fun v _ =>
    onString "escape_html" (fun s => String.ofList (s.toList.flatMap escapeChar)) v
  | "length" => some fun v _ => length v
  | "first" => some fun v _ => (list "first" v).map fun items => items.headD (.string "")
  | "last" => some fun v _ => (list "last" v).map fun items => items.getLastD (.string "")
  | "reverse" => some fun v _ => reverse v
  | "abs" => some fun v _ => abs v
  | "join" => some join
  | "replace" => some replace
  | "split" => some split
  | "sort" => some sort
  | "map" => some map
  | "round" => some round
  | _ => none

end Galley.Template.Filter
