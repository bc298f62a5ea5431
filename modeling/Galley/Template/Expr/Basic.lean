import Galley.Value.Basic

/-!
Expressions of templates.
-/

namespace Galley.Template

/-- Arithmetic operators. -/
inductive MathOp where
  | add
  | sub
  | mul
  | div
  | mod
deriving DecidableEq, Repr

def MathOp.isFactor : MathOp → Bool
  | .add | .sub => false
  | .mul | .div | .mod => true

/-- Operators with a truth value. -/
inductive LogicOp where
  | or
  | and
  | lt
  | le
  | gt
  | ge
  | eq
  | ne
deriving DecidableEq, Repr

mutual

/-- An expression: an atom, whether it is negated, and the filters applied to it in order. -/
inductive Expr where
  | mk (atom : Atom) (negated : Bool) (filters : List Call)

/-- The kinds of expressions. -/
inductive Atom where
  | string (s : String)
  | int (i : Int)
  | double (d : Double)
  | bool (b : Bool)
  /-- A variable, with the dots and brackets of its path. -/
  | path (text : String)
  | math (op : MathOp) (left right : Expr)
  | logic (op : LogicOp) (left right : Expr)
  | test (subject : String) (negated : Bool) (name : String) (args : List Expr)
  | call (function : Call)
  | list (items : List Expr)
  | concat (parts : List Atom)
  | elem (negated : Bool) (left right : Expr)

/-- A function or a filter with its named arguments. -/
inductive Call where
  | mk (name : String) (args : List (String × Expr))

end

instance : Inhabited Expr := ⟨.mk (.bool false) false []⟩

namespace Call

def name : Call → String
  | .mk name _ => name

def args : Call → List (String × Expr)
  | .mk _ args => args

end Call

def isNamed (name : String) (args : List (String × Expr)) : Bool := args.any (·.1 == name)

namespace Expr

def ofAtom (atom : Atom) : Expr := .mk atom false []

def atom : Expr → Atom
  | .mk atom _ _ => atom

def filters : Expr → List Call
  | .mk _ _ filters => filters

def withNegation (e : Expr) (negated : Bool) : Expr :=
  match e with
  | .mk atom _ filters => .mk atom negated filters

def withFilters (e : Expr) (more : List Call) : Expr :=
  match e with
  | .mk atom negated filters => .mk atom negated (filters ++ more)

end Expr

end Galley.Template
