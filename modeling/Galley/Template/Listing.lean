import Galley.Template.Expr.Basic
import Galley.Text.Quoted

/-!
Listings: expressions and values spelled out for messages, with the name of every part.
-/

namespace Galley.Template.Listing

private def fieldOf (name text : String) : String := name ++ ": " ++ text

private def structureOf (kind : String) (fields : List String) : String :=
  kind ++ " \x7b " ++ ", ".intercalate fields ++ " \x7d"

def bool (b : Bool) : String := if b then "true" else "false"

def double (d : Double) : String := NumberLayout.listed.text d

def mathOp : MathOp → String
  | .add => "Add"
  | .sub => "Sub"
  | .mul => "Mul"
  | .div => "Div"
  | .mod => "Modulo"

def logicOp : LogicOp → String
  | .or => "Or"
  | .and => "And"
  | .lt => "Lt"
  | .le => "Lte"
  | .gt => "Gt"
  | .ge => "Gte"
  | .eq => "Eq"
  | .ne => "NotEq"

mutual

def expr : Expr → String
  | .mk a negated filters =>
    structureOf "Expr" [fieldOf "val" (atom a), fieldOf "negated" (bool negated),
      fieldOf "filters" ("[" ++ ", ".intercalate (calls filters) ++ "]")]

def atom : Atom → String
  | .string s => "String(" ++ Text.Quoted.quote s ++ ")"
  | .int i => "Int(" ++ toString i ++ ")"
  | .double d => "Float(" ++ double d ++ ")"
  | .bool b => "Bool(" ++ bool b ++ ")"
  | .path text => "Ident(" ++ Text.Quoted.quote text ++ ")"
  | .math op left right =>
    "Math(" ++ structureOf "MathExpr" [fieldOf "lhs" (expr left), fieldOf "rhs" (expr right),
      fieldOf "operator" (mathOp op)] ++ ")"
  | .logic op left right =>
    "Logic(" ++ structureOf "LogicExpr" [fieldOf "lhs" (expr left), fieldOf "rhs" (expr right),
      fieldOf "operator" (logicOp op)] ++ ")"
  | .test subject negated name args =>
    "Test(" ++ structureOf "Test" [fieldOf "ident" (Text.Quoted.quote subject),
      fieldOf "negated" (bool negated), fieldOf "name" (Text.Quoted.quote name),
      fieldOf "args" ("[" ++ ", ".intercalate (exprs args) ++ "]")] ++ ")"
  | .call function => "FunctionCall(" ++ call function ++ ")"
  | .list items => "Array([" ++ ", ".intercalate (exprs items) ++ "])"
  | .concat parts =>
    "StringConcat(" ++ structureOf "StringConcat"
      [fieldOf "values" ("[" ++ ", ".intercalate (atoms parts) ++ "]")] ++ ")"
  | .elem negated left right =>
    "In(" ++ structureOf "In" [fieldOf "lhs" (expr left), fieldOf "rhs" (expr right),
      fieldOf "negated" (bool negated)] ++ ")"

def call : Call → String
  | .mk name args =>
    structureOf "FunctionCall" [fieldOf "name" (Text.Quoted.quote name),
      fieldOf "args" ("\x7b" ++ ", ".intercalate (arguments args) ++ "\x7d")]

def exprs : List Expr → List String
  | [] => []
  | e :: es => expr e :: exprs es

def atoms : List Atom → List String
  | [] => []
  | a :: as => atom a :: atoms as

def calls : List Call → List String
  | [] => []
  | c :: cs => call c :: calls cs

def arguments : List (String × Expr) → List String
  | [] => []
  | (name, e) :: rest =>
    if isNamed name rest then arguments rest
    else fieldOf (Text.Quoted.quote name) (expr e) :: arguments rest

end

mutual

def value : Value → String
  | .null => "Null"
  | .bool b => "Bool(" ++ bool b ++ ")"
  | .number n => "Number(" ++ n.text ++ ")"
  | .string s => "String(" ++ Text.Quoted.quote s ++ ")"
  | .list items => "Array [" ++ ", ".intercalate (values items) ++ "]"
  | .record fields => "Object \x7b" ++ ", ".intercalate (entries fields) ++ "\x7d"

def values : List Value → List String
  | [] => []
  | v :: vs => value v :: values vs

def entries : List (String × Value) → List String
  | [] => []
  | (name, v) :: rest => fieldOf (Text.Quoted.quote name) (value v) :: entries rest

end

/-- A concatenation as it might be written; calls and numbers are not shown. -/
def concatenation (parts : List Atom) : String :=
  " ~ ".intercalate (parts.map fun
    | .string s => "'" ++ s ++ "'"
    | .path text => text
    | _ => "unknown")

end Galley.Template.Listing
