import Galley.Value.Basic

/-!
Equality of values. Integers are equal to integers only and doubles to doubles, and records are equal
in whatever order their fields stand.
-/

namespace Galley

def Number.same : Number → Number → Bool
  | .int a, .int b => a == b
  | .double a, .double b => a.eqv b
  | _, _ => false

namespace Value

mutual

def same : Value → Value → Bool
  | .null, .null => true
  | .bool a, .bool b => a == b
  | .number a, .number b => a.same b
  | .string a, .string b => a == b
  | .list as, .list bs => sameItems as bs
  | .record as, .record bs => as.length == bs.length && sameFields as bs
  | _, _ => false

def sameItems : List Value → List Value → Bool
  | [], [] => true
  | a :: as, b :: bs => same a b && sameItems as bs
  | _, _ => false

def sameFields : List (String × Value) → List (String × Value) → Bool
  | [], _ => true
  | (key, a) :: as, bs =>
    (match Record.get? bs key with
      | some b => same a b
      | none => false) && sameFields as bs

end

/-- Whether a value counts as true: null, zero and anything empty do not. -/
def isTruthy : Value → Bool
  | .null => false
  | .bool b => b
  | .number (.int i) => i != 0
  | .number (.double d) => !d.isZero
  | .string s => !s.isEmpty
  | .list items => !items.isEmpty
  | .record fields => !fields.isEmpty

end Value

end Galley
