import Galley.Value.Basic

/-!
The text that an interpolation prints for a value: null is nothing, a record only a word, and strings
stand without quotes, also inside lists.
-/

namespace Galley.Template

def printNumber : Number → String
  | .int i => toString i
  | .double d => NumberLayout.printed.text d

mutual

def printValue : Value → String
  | .null => ""
  | .bool b => if b then "true" else "false"
  | .number n => printNumber n
  | .string s => s
  | .list items => "[" ++ ", ".intercalate (printValues items) ++ "]"
  | .record _ => "[object]"

def printValues : List Value → List String
  | [] => []
  | v :: vs => printValue v :: printValues vs

end

end Galley.Template
