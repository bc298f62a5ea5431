import Galley.Template.Listing
import Galley.Text.Blank
import Galley.Text.Search
import Galley.Value.Printer

/-!
Errors of templates, and the messages of each, from the outermost to its cause.
-/

namespace Galley.Template

/-- What is called by name in an expression. -/
inductive Callee where
  | function
  | filter
  | test
deriving DecidableEq, Repr

def Callee.title : Callee → String
  | .function => "Function"
  | .filter => "Filter"
  | .test => "Test"

def MathOp.sign : MathOp → String
  | .add => "+"
  | .sub => "-"
  | .mul => "x"
  | .div => "/"
  | .mod => "%"

/-- Why a template cannot be rendered. -/
inductive Error where
  /-- The text does not fit the grammar. -/
  | grammar
  | integerTooLarge (i : Int)
  | variableMissing (path : String)
  /-- A path with brackets leads nowhere; `resolved` is the path with its indices put in. -/
  | elementMissing (path resolved : String)
  | indexFailed (path : String) (cause : Error)
  | indexKind (index path : String)
  | concatVariable (path : String)
  | concatCall (function : String)
  | mathVariable (path : String)
  | mathCall (function : String)
  | mathString (s : String)
  | mathBool (b : Bool)
  | mathConcat (parts : List Atom)
  | mathTest (name : String)
  | mathFiltered
  | overflow (op : MathOp) (left right : Int) (signed : Bool)
  | moduloByZero (left right : Expr)
  | notComparable
  | logicCall (function : String)
  | notAString (value : Value) (container : String)
  | notAContainer
  | defaultWithoutValue
  | unknown (callee : Callee) (name : String)
  /-- A call failed; the causes are the messages of what went wrong in it, outermost first. -/
  | callFailed (callee : Callee) (name : String) (causes : List String)
  | loopKind (container : Atom)
  | loopNotRecord (container : String)
  | loopWithoutKey (container : String)
  | loopUnsupported (container : String)
  | templateMissing (names : List String)
  | stopOutsideLoop
  | nextOutsideLoop
  /-- The headline of another error, without what lies behind it. -/
  | headline (text : String)

namespace Error

def message : Error → String
  | .grammar => "<syntax>"
  | .integerTooLarge i => "Integer out of bounds: \x60" ++ toString i ++ "\x60"
  | .variableMissing path => "Variable \x60" ++ path ++ "\x60 not found in context"
  | .elementMissing path resolved =>
    "Variable \x60" ++ path ++ "\x60 not found in context : the evaluated version was \x60" ++
      resolved ++ "\x60. Maybe the index is out of bounds?"
  | .indexFailed path cause =>
    "Variable " ++ path ++ " can not be evaluated because: " ++ cause.message
  | .indexKind index path =>
    "Only variables evaluating to String or Number can be used as index (\x60" ++ index ++
      "\x60 of \x60" ++ path ++ "\x60)"
  | .concatVariable path =>
    "Tried to concat a value that is not a string or a number from ident " ++ path
  | .concatCall function =>
    "Tried to concat a value that is not a string or a number from function call " ++ function
  | .mathVariable path =>
    "Variable \x60" ++ path ++ "\x60 was used in a math operation but is not a number"
  | .mathCall function =>
    "Function \x60" ++ function ++
      "\x60 was used in a math operation but is not returning a number"
  | .mathString s => "Tried to do math with a string: \x60" ++ s ++ "\x60"
  | .mathBool b => "Tried to do math with a boolean: \x60" ++ Listing.bool b ++ "\x60"
  | .mathConcat parts =>
    "Tried to do math with a string concatenation: " ++ Listing.concatenation parts
  | .mathTest name => "Tried to do math with a test: " ++ name
  | .mathFiltered => "Tried to do math with an expression not resulting in a number"
  | .overflow op left right signed =>
    toString left ++ " " ++ op.sign ++ " " ++ toString right ++ " results in an out of bounds " ++
      (if signed then "i64" else "u64")
  | .moduloByZero left right =>
    "Tried to do a modulo by zero: " ++ Listing.expr left ++ "/" ++ Listing.expr right
  | .notComparable => "Comparison to NaN"
  | .logicCall function =>
    "Function \x60" ++ function ++
      "\x60 was used in a logic operation but is not returning a bool"
  | .notAString value container =>
    "Tried to check if " ++ Listing.value value ++ " is in a " ++ container ++
      ", but it isn't a string"
  | .notAContainer => "The \x60in\x60 operator only supports strings, arrays and objects."
  | .defaultWithoutValue => "The \x60default\x60 filter requires a \x60value\x60 argument."
  | .unknown callee name => callee.title ++ " '" ++ name ++ "' not found"
  | .callFailed callee name _ => callee.title ++ " call '" ++ name ++ "' failed"
  | .loopKind container =>
    "Forloop containers have to be an ident or a function call (tried to iterate on '" ++
      Listing.atom container ++ "')"
  | .loopNotRecord container =>
    "Tried to iterate using key value on variable \x60" ++ container ++
      "\x60, but it isn't an object/map"
  | .loopWithoutKey container =>
    "Tried to iterate using key value on variable \x60" ++ container ++
      "\x60, but it is missing a key"
  | .loopUnsupported container =>
    "Tried to iterate on a container (\x60" ++ container ++ "\x60) that has a unsupported type"
  | .templateMissing names => "Template '[" ++ ", ".intercalate names ++ "]' not found"
  | .stopOutsideLoop => "Attempted \x60break\x60 while not in \x60for loop\x60"
  | .nextOutsideLoop => "Attempted \x60continue\x60 while not in \x60for loop\x60"
  | .headline text => text

def messages : Error → List String
  | .callFailed callee name causes => Error.message (.callFailed callee name causes) :: causes
  | e => [e.message]

def textName : String := "'__tera_one_off'"

/-- A message without what says only which template it is about. -/
def tidy (message : String) : String :=
  let step (message : List Char) (change : String × String) : List Char :=
    Text.replaceAll (change.1 ++ textName).toList change.2.toList message
  Text.trim (String.ofList ([("while rendering ", ""),
    ("Failed to render ", "Template rendering failed"),
    ("Failed to parse ", "Template syntax error"), ("", "template")].foldl step message.toList))

def line (e : Error) : String := ": ".intercalate ((e.messages.map tidy).filter (!·.isEmpty))

end Error

end Galley.Template
