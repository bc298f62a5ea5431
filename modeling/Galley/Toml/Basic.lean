/-!
Values of TOML documents. Numbers that are not integers and dates are known by their kind only.
-/

namespace Galley.Toml

/-- A value. -/
inductive Value where
  | string (s : String)
  | int (i : Int)
  | float
  | bool (b : Bool)
  | date
  | list (items : List Value)
  | table (fields : List (String × Value))
deriving Repr, Inhabited

end Galley.Toml
