import Galley.Typst.Identifier
import Galley.Value.Basic

/-!
Typst literals of values. Null is written as the empty string, and so is anything nested too deeply;
a list of one item keeps a comma, since parentheses alone only group; an empty record is written
like an empty list.
-/

namespace Galley.Typst.Literal

/-- The greatest number of levels below a value that are written out. -/
def maxDepth : Nat := 50

/-- The form of one character of a string. The apostrophe and two controls are written by number. -/
def escape (c : Char) : List Char :=
  if c = '\\' then ['\\', '\\']
  else if c = '"' then ['\\', '"']
  else if c = '\'' then ['\\', 'u', '\x7b', '2', '7', '\x7d']
  else if c = '\n' then ['\\', 'n']
  else if c = '\t' then ['\\', 't']
  else if c = '\r' then ['\\', 'r']
  else if c = '\x0C' then ['\\', 'u', '\x7b', 'c', '\x7d']
  else if c = '\x08' then ['\\', 'u', '\x7b', '8', '\x7d']
  else [c]

def string (text : String) : List Char := '"' :: text.toList.flatMap escape ++ ['"']

/-- A dictionary key: bare when it can be, else a string literal. -/
def key (name : String) : List Char := if isIdentifier name then name.toList else string name

def commaSeparated : List (List Char) → List Char
  | [] => []
  | [part] => part
  | part :: parts => part ++ ',' :: ' ' :: commaSeparated parts

mutual

/-- The literal of a value that stands `depth` levels down, when `limit` levels are written out. -/
def value (depth limit : Nat) : Value → List Char
  | .null => ['"', '"']
  | .bool b => if limit < depth then ['"', '"'] else (if b then "true" else "false").toList
  | .number n => if limit < depth then ['"', '"'] else n.text.toList
  | .string s => if limit < depth then ['"', '"'] else string s
  | .list xs =>
    if limit < depth then ['"', '"']
    else
      match items (depth + 1) limit xs with
      | [part] => '(' :: part ++ [',', ')']
      | parts => '(' :: commaSeparated parts ++ [')']
  | .record fs =>
    if limit < depth then ['"', '"'] else '(' :: commaSeparated (fields (depth + 1) limit fs) ++ [')']

def items (depth limit : Nat) : List Value → List (List Char)
  | [] => []
  | x :: xs => value depth limit x :: items depth limit xs

def fields (depth limit : Nat) : List (String × Value) → List (List Char)
  | [] => []
  | (name, x) :: fs => (key name ++ ':' :: ' ' :: value depth limit x) :: fields depth limit fs

end

def encodeString (text : String) : String := String.ofList (string text)

/-- The literal of a value `depth` levels down. -/
def encodeWithDepth (v : Value) (depth limit : Nat) : String := String.ofList (value depth limit v)

def encode (v : Value) : String := encodeWithDepth v 0 maxDepth

end Galley.Typst.Literal
