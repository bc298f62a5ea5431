import Galley.Number.Layout

/-!
Values: the data that a caller binds to names. A record keeps its keys in the order in which they
were first put.
-/

namespace Galley

/-- A number: an integer of at most 64 bits, or a double. -/
inductive Number where
  | int (i : Int)
  | double (d : Double)
deriving DecidableEq, Repr

namespace Number

def toDouble : Number → Double
  | .int i => .ofInt i
  | .double d => d

def text : Number → String
  | .int i => toString i
  | .double d => NumberLayout.data.text d

/-- The least and the greatest integer of 64 bits with a sign. -/
def fitsSigned (i : Int) : Bool := -Int.pow 2 63 ≤ i && i < Int.pow 2 63

/-- The integers of 64 bits without a sign. -/
def fitsUnsigned (i : Int) : Bool := 0 ≤ i && i < Int.pow 2 64

end Number

/-- A value. -/
inductive Value where
  | null
  | bool (b : Bool)
  | number (n : Number)
  | string (s : String)
  | list (items : List Value)
  | record (fields : List (String × Value))
deriving Repr, Inhabited

abbrev Record := List (String × Value)

namespace Record

def get? (fields : Record) (key : String) : Option Value := fields.lookup key

/-- A key that is there keeps its place and takes the value; another goes to the end. -/
def put (fields : Record) (key : String) (value : Value) : Record :=
  match fields with
  | [] => [(key, value)]
  | (k, v) :: rest => if k == key then (k, value) :: rest else (k, v) :: put rest key value

def keys (fields : Record) : List String := fields.map Prod.fst

theorem get?_put (fields : Record) (key : String) (value : Value) (k : String) :
    (fields.put key value).get? k = if k = key then some value else fields.get? k := by
  induction fields with
  | nil =>
    by_cases h : k = key
    · simp [put, get?, h]
    · have hb : (k == key) = false := by simpa using h
      simp [put, get?, List.lookup_cons, h, hb]
  | cons field rest ih =>
    obtain ⟨name, v⟩ := field
    simp only [get?] at ih
    by_cases hn : name = key
    · subst hn
      by_cases hk : k = name
      · simp [put, get?, hk]
      · have hb : (k == name) = false := by simpa using hk
        simp [put, get?, List.lookup_cons, hk, hb]
    · by_cases hk : k = name
      · subst hk
        simp [put, get?, hn]
      · have hb : (k == name) = false := by simpa using hk
        simp [put, get?, List.lookup_cons, hn, hb, ih]

/-- Putting a key changes the keys only at the end. -/
theorem keys_put (fields : Record) (key : String) (value : Value) :
    (fields.put key value).keys = if key ∈ fields.keys then fields.keys else fields.keys ++ [key] := by
  induction fields with
  | nil => simp [put, keys]
  | cons field rest ih =>
    obtain ⟨name, v⟩ := field
    simp only [keys] at ih
    by_cases hn : name = key
    · simp [put, keys, hn]
    · have hn' : ¬key = name := fun h => hn h.symm
      by_cases hm : key ∈ rest.map Prod.fst <;> simp_all [put, keys]

end Record

end Galley
