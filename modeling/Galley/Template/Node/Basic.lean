import Galley.Template.Expr.Basic

/-!
Templates: texts, interpolations and statements.
-/

namespace Galley.Template

/-- Whether a mark cuts the blanks before it and the blanks after it. -/
structure Trim where
  before : Bool
  after : Bool
deriving DecidableEq, Repr

mutual

/-- A piece of a template. A statement with a body has the marks of its first and its last tag. -/
inductive Node where
  | text (content : List Char)
  | comment (marks : Trim)
  | print (marks : Trim) (value : Expr)
  /-- An assignment, in the innermost loop or for the whole template. -/
  | assign (marks : Trim) (everywhere : Bool) (name : String) (value : Expr)
  | insert (marks : Trim) (templates : List String) (ignoreMissing : Bool)
  | raw (first : Trim) (content : List Char) (last : Trim)
  /-- A loop with the bodies for when there is nothing to run over, of which the last counts. -/
  | loop (first : Trim) (key : Option String) (item : String) (container : Expr) (body : List Node)
      (otherwise : List (List Node)) (last : Trim)
  | filtered (first : Trim) (filter : Call) (body : List Node) (last : Trim)
  | choice (branches : List Branch) (otherwise : Option (Trim × List Node)) (last : Trim)
  | stop (marks : Trim)
  | next (marks : Trim)

/-- A branch of a choice, with the marks of the tag that opens it. -/
inductive Branch where
  | mk (marks : Trim) (condition : Expr) (body : List Node)

end

end Galley.Template
