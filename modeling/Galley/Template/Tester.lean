import Galley.Template.Filter
import Galley.Value.Compare

/-!
Tests: what can be asked about a variable. A test gets the value, if there is one, and its arguments.
-/

namespace Galley.Template.Tester

abbrev Result := Except String Bool

def takes (name : String) (most : Nat) (args : List Value) : Except String Unit :=
  if args.length ≤ most then .ok ()
  else if most = 0 then
    .error ("Tester \x60" ++ name ++
      "\x60 was called with some args but this test doesn't take args")
  else
    .error ("Tester \x60" ++ name ++ "\x60 was called with " ++ toString args.length ++
      " args, the max number is " ++ toString most)

def present (name : String) : Option Value → Except String Value
  | some v => .ok v
  | none => .error ("Tester \x60" ++ name ++ "\x60 was called on an undefined variable")

def kind (name : String) (is : Value → Bool) (v : Option Value) (args : List Value) : Result := do
  takes name 0 args
  return is (← present name v)

/-- The message for something that is not of a kind. -/
def notA (name place kind : String) : String :=
  "Tester \x60" ++ name ++ "\x60 was called " ++ place ++ " that isn't a " ++ kind

def string (name place : String) : Option Value → Except String String
  | some (.string s) => .ok s
  | _ => .error (notA name place "string")

def number (name place : String) : Option Value → Except String Double
  | some (.number n) => .ok n.toDouble
  | _ => .error (notA name place "number")

def odd (v : Option Value) (args : List Value) : Result := do
  takes "odd" 0 args
  let v ← present "odd" v
  let x ← number "odd" "on a variable" (some v)
  return !(x.rem (.ofInt 2)).isZero

def strings (name : String) (is : (needle text : List Char) → Bool) (v : Option Value)
    (args : List Value) : Result := do
  takes name 1 args
  let v ← present name v
  let text ← string name "on a variable" (some v)
  let needle ← string name "with a parameter" args.head?
  return is needle.toList text.toList

def containing (v : Option Value) (args : List Value) : Result := do
  takes "containing" 1 args
  match ← present "containing" v with
  | .string s =>
    let needle ← string "containing" "with a parameter" args.head?
    return Text.contains needle.toList s.toList
  | .list items =>
    return match args.head? with
      | some needle => items.any (·.same needle)
      | none => false
  | .record fields =>
    let needle ← string "containing" "with a parameter" args.head?
    return (Record.get? fields needle).isSome
  | _ => .error "Tester \x60containing\x60 can only be used on string, array or map"

def divisibleBy (v : Option Value) (args : List Value) : Result := do
  takes "divisibleby" 1 args
  let v ← present "divisibleby" v
  let x ← number "divisibleby" "on a variable" (some v)
  let y ← number "divisibleby" "with a parameter" args.head?
  return (x.rem y).isZero

/-- The test of a name, when there is one. -/
def find? (name : String) : Option (Option Value → List Value → Result) :=
  match name with
  | "defined" => some fun v args => (takes "defined" 0 args).map fun _ => v.isSome
  | "undefined" => some fun v args => (takes "undefined" 0 args).map fun _ => v.isNone
  | "odd" => some odd
  | "even" => some fun v args => do
    takes "even" 0 args
    let _ ← present "even" v
    return !(← odd v args)
  | "string" => some <| kind "string" fun
    | .string _ => true
    | _ => false
  | "number" => some <| kind "number" fun
    | .number _ => true
    | _ => false
  | "iterable" => some <| kind "iterable" fun
    | .list _ | .record _ => true
    | _ => false
  | "object" => some <| kind "object" fun
    | .record _ => true
    | _ => false
  | "starting_with" => some (strings "starting_with" Text.startsWith)
  | "ending_with" => some (strings "ending_with" fun needle text => needle.isSuffixOf text)
  | "containing" => some containing
  | "divisibleby" => some divisibleBy
  | _ => none

end Galley.Template.Tester
