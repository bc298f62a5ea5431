import Galley.Toml.Document
import Galley.Toml.Scalar

/-!
The grammar of TOML 1.1: lines of keys and values under headers.
-/

namespace Galley.Toml

open Scalar

namespace Parser

/-- A character of a key without quotes. -/
def isBareKey (c : Char) : Bool := c.isAlphanum || c == '_' || c == '-'

def keyPart? (text : List Char) : Option (String × List Char) :=
  match text with
  | '"' :: rest => (basic? (rest.length + 1) rest).map fun (s, rest) => (String.ofList s, rest)
  | '\'' :: rest => (literal? rest).map fun (s, rest) => (String.ofList s, rest)
  | _ =>
    let part := text.takeWhile isBareKey
    if part.isEmpty then none else some (String.ofList part, text.dropWhile isBareKey)

/-- How deep lists and tables in braces may stand in each other, and how many parts a key may have. -/
def maxDepth : Nat := 80

def keyParts? : Nat → List Char → Option (List String × List Char)
  | 0, _ => none
  | fuel + 1, text => do
    let (part, rest) ← keyPart? (text.dropWhile isBlank)
    match rest.dropWhile isBlank with
    | '.' :: rest => do
      let (parts, rest) ← keyParts? fuel rest
      return (part :: parts, rest)
    | rest => return ([part], rest)

/-- A key of not too many parts. -/
def key? (text : List Char) : Option (List String × List Char) :=
  (keyParts? (text.length + 1) text).filter fun found => found.1.length ≤ maxDepth

/-- What is left after a comment, when there is one; its line end stays. -/
def comment? (text : List Char) : Option (List Char) :=
  match text with
  | '#' :: rest =>
    let isLineEnd (c : Char) : Bool := c == '\n' || c == '\r'
    let rest' := rest.dropWhile (!isLineEnd ·)
    if (rest.takeWhile (!isLineEnd ·)).any isControl then none else some rest'
  | _ => some text

def skipLines? : Nat → List Char → Option (List Char)
  | 0, _ => none
  | fuel + 1, text => do
    let rest ← comment? (text.dropWhile isBlank)
    match newline? rest with
    | some rest => skipLines? fuel rest
    | none => return rest

/-- What is left after the end of a line: blanks, a comment, and a line end or the end of the text. -/
def lineEnd? (text : List Char) : Option (List Char) := do
  let rest ← comment? (text.dropWhile isBlank)
  if rest.isEmpty then some [] else newline? rest

mutual

/-- A value; `depth` says how many lists and tables may still open in each other. -/
def value? : Nat → (depth : Nat) → List Char → Option (Value × List Char)
  | 0, _, _ => none
  | fuel + 1, depth, text =>
    match text, depth with
    | '[' :: rest, depth + 1 => list? fuel depth [] rest
    | '\x7b' :: rest, depth + 1 => inline? fuel depth [] rest
    | '"' :: _, _ | '\'' :: _, _ => (string? text).map fun (s, rest) => (.string s, rest)
    | _, _ => unquoted? text

def list? : Nat → (depth : Nat) → List Value → List Char → Option (Value × List Char)
  | 0, _, _, _ => none
  | fuel + 1, depth, read, text => do
    let rest ← skipLines? (text.length + 1) text
    match rest with
    | ']' :: rest => return (.list read, rest)
    | _ =>
      let (v, rest) ← value? fuel depth rest
      let rest ← skipLines? (rest.length + 1) rest
      match rest with
      | ',' :: rest => list? fuel depth (read ++ [v]) rest
      | ']' :: rest => return (.list (read ++ [v]), rest)
      | _ => none

def inline? : Nat → (depth : Nat) → Items → List Char → Option (Value × List Char)
  | 0, _, _, _ => none
  | fuel + 1, depth, read, text => do
    let rest ← skipLines? (text.length + 1) text
    match rest with
    | '\x7d' :: rest => return (.table (fieldsOf read), rest)
    | _ =>
      let (keys, rest) ← key? rest
      let rest ← Text.dropStart? ['='] (← skipLines? (rest.length + 1) rest)
      let (v, rest) ← value? fuel depth (← skipLines? (rest.length + 1) rest)
      let read ← read.insertDotted keys v
      let rest ← skipLines? (rest.length + 1) rest
      match rest with
      | ',' :: rest => inline? fuel depth read rest
      | '\x7d' :: rest => return (.table (fieldsOf read), rest)
      | _ => none

end

/-- A document with the header under which it grows. -/
structure State where
  root : Items
  header : List String

def State.open? (s : State) (keys : List String) (change : String → Items → Option Items) :
    Option State := do
  let last ← keys.getLast?
  let root ← s.root.within (change last) keys.dropLast
  return ⟨root, keys⟩

def line? (s : State) (text : List Char) : Option (State × List Char) :=
  match text with
  | '[' :: '[' :: rest => do
    let (keys, rest) ← key? rest
    let rest ← Text.dropStart? [']', ']'] rest
    return (← s.open? keys Items.openRow, ← lineEnd? rest)
  | '[' :: rest => do
    let (keys, rest) ← key? rest
    let rest ← Text.dropStart? [']'] rest
    return (← s.open? keys Items.openTable, ← lineEnd? rest)
  | _ => do
    let (keys, rest) ← key? text
    let rest ← Text.dropStart? ['='] rest
    let rest := rest.dropWhile isBlank
    let (v, rest) ← value? (2 * rest.length + 2) maxDepth rest
    let root ← s.root.within (fun items => items.insertDotted keys v) s.header
    return (⟨root, s.header⟩, ← lineEnd? rest)

def lines? : Nat → State → List Char → Option Items
  | 0, _, _ => none
  | fuel + 1, s, text => do
    let rest ← skipLines? (text.length + 1) text
    if rest.isEmpty then some s.root
    else
      let (s, rest) ← line? s rest
      lines? fuel s rest

end Parser

/-- The fields of a document. A byte order mark in front does not count. -/
def parse? (text : String) : Option (List (String × Value)) :=
  let text :=
    match text.toList with
    | '\uFEFF' :: rest => rest
    | text => text
  (Parser.lines? (text.length + 1) ⟨[], []⟩ text).map fieldsOf

end Galley.Toml
