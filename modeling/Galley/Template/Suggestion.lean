import Galley.Text.EditDistance
import Galley.Text.Search

/-!
Suggestions for a missing variable: the bindings whose names are nearest to it by edit distance, as
far as they differ in no more than half as many characters as the name has octets.
-/

namespace Galley.Template.Suggestion

/-- The greatest number of suggestions. -/
def most : Nat := 3

def thresholdPercent : Nat := 50

/-- The greatest distance of a suggestion. -/
def limit (target : String) : Nat := target.utf8ByteSize * thresholdPercent / 100

/-- The names nearest to a name, the nearest first; of equal ones the first binding. -/
def nearest (target : String) (names : List String) : List String :=
  let scored := names.map fun name =>
    (name, Text.EditDistance.distance target.toList name.toList)
  let sorted := scored.mergeSort fun a b => a.2 ≤ b.2
  ((sorted.filter fun a => a.2 ≤ limit target).take most).map Prod.fst

/-- The name of the variable that is missing, when the text begins by saying so. -/
def missingAt? (text : List Char) : Option (List Char) :=
  match Text.dropStart? "Variable \x60".toList text with
  | none => none
  | some rest =>
    let name := rest.takeWhile (· ≠ '\x60')
    if !name.isEmpty && Text.startsWith "\x60 not found".toList (rest.dropWhile (· ≠ '\x60')) then
      some name
    else none

/-- The name of the first variable of which a text says that it is missing. -/
def missing? : List Char → Option (List Char)
  | [] => none
  | c :: text => missingAt? (c :: text) <|> missing? text

/-- The message with suggestions after it, when a variable is missing and there are any. -/
def describe (message : String) (names : List String) : String :=
  match missing? message.toList with
  | none => message
  | some name =>
    match nearest (String.ofList name) names with
    | [] => message
    | found => message ++ " (did you mean: " ++ ", ".intercalate found ++ "?)"

end Galley.Template.Suggestion
