import Galley.Toml.Basic

/-!
Documents as they grow: keys are put into tables one by one, and what has been defined cannot be
defined again.
-/

namespace Galley.Toml

/-- How a table came to be: by its own header, by a header of a table inside it, or by dotted keys. -/
inductive Origin where
  | header
  | implied
  | dotted
deriving DecidableEq, Repr

/-- What stands under a key: a value, a table, or a row of tables of which the last grows. -/
inductive Item where
  | value (v : Value)
  | table (origin : Origin) (items : List (String × Item))
  | rows (before : List (List (String × Item))) (last : List (String × Item))
deriving Repr, Inhabited

abbrev Items := List (String × Item)

namespace Items

def get? (items : Items) (key : String) : Option Item := items.lookup key

def put (items : Items) (key : String) (item : Item) : Items :=
  match items with
  | [] => [(key, item)]
  | (k, i) :: rest => if k == key then (k, item) :: rest else (k, i) :: put rest key item

/-- A value under dotted keys. The table that gets it was made by dotted keys too; on the way to that
table ones that were implied and the last tables of rows may be met. -/
def insertDotted (items : Items) : List String → Value → Option Items
  | [], _ => none
  | [key], v =>
    match items.get? key with
    | none => some (items.put key (.value v))
    | some _ => none
  | key :: more, v =>
    match items.get? key with
    | none => (insertDotted [] more v).map fun inner => items.put key (.table .dotted inner)
    | some (.table .dotted inner) =>
      (insertDotted inner more v).map fun inner => items.put key (.table .dotted inner)
    | some (.table .implied inner) =>
      if more.length = 1 then none
      else (insertDotted inner more v).map fun inner => items.put key (.table .implied inner)
    | some (.rows before last) =>
      if more.length = 1 then none
      else (insertDotted last more v).map fun last => items.put key (.rows before last)
    | some _ => none

/-- A change of the table to which keys lead, through the last table of each row. Tables that are not
there are implied. -/
def within (items : Items) (change : Items → Option Items) : List String → Option Items
  | [] => change items
  | key :: more =>
    match items.get? key with
    | none => (within [] change more).map fun inner => items.put key (.table .implied inner)
    | some (.table origin inner) =>
      (within inner change more).map fun inner => items.put key (.table origin inner)
    | some (.rows before last) =>
      (within last change more).map fun last => items.put key (.rows before last)
    | some (.value _) => none

/-- A table opened by its header. One that was only implied may be opened. -/
def openTable (key : String) (items : Items) : Option Items :=
  match items.get? key with
  | none => some (items.put key (.table .header []))
  | some (.table .implied inner) => some (items.put key (.table .header inner))
  | some _ => none

def openRow (key : String) (items : Items) : Option Items :=
  match items.get? key with
  | none => some (items.put key (.rows [] []))
  | some (.rows before last) => some (items.put key (.rows (before ++ [last]) []))
  | some _ => none

end Items

mutual

def Item.toValue : Item → Value
  | .value v => v
  | .table _ items => .table (fieldsOf items)
  | .rows before last => .list (tablesOf before ++ [.table (fieldsOf last)])

def fieldsOf : List (String × Item) → List (String × Value)
  | [] => []
  | (key, item) :: rest => (key, item.toValue) :: fieldsOf rest

def tablesOf : List (List (String × Item)) → List Value
  | [] => []
  | items :: rest => .table (fieldsOf items) :: tablesOf rest

end

end Galley.Toml
