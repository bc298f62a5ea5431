import Galley.Template.Expr.Parser
import Galley.Template.Node.Basic

/-!
The grammar of templates. A text that does not fit it as a whole is refused.

It is the engine's grammar for texts that stand alone. What ties templates together is not read: the tags
`block` and `extends` with the call `super()`, and the tags `macro` and `import`.
-/

namespace Galley.Template.Parser

open Lexeme

/-- A mark that opens, with the sign that cuts blanks or without it. -/
def opening? (mark : List Char) (text : List Char) : Option (Bool × List Char) :=
  match Text.dropStart? mark text with
  | some ('-' :: rest) => some (true, rest)
  | some rest => some (false, rest)
  | none => none

/-- A mark that closes, with the sign that cuts blanks or without it. -/
def closing? (mark : List Char) (text : List Char) : Option (Bool × List Char) :=
  match text with
  | '-' :: rest => (Text.dropStart? mark rest).map fun rest => (true, rest)
  | _ => (Text.dropStart? mark text).map fun rest => (false, rest)

def tagOpening? : List Char → Option (Bool × List Char) := opening? ['\x7b', '%']

def tagClosing? : List Char → Option (Bool × List Char) := closing? ['%', '\x7d']

def wordTag? (word : String) (text : List Char) : Option (Trim × List Char) := do
  let (before, rest) ← tagOpening? text
  let rest ← Text.dropStart? word.toList (skip rest)
  let (after, rest) ← tagClosing? (skip rest)
  return (⟨before, after⟩, rest)

def tagStart? (word : String) (text : List Char) : Option (Bool × List Char) := do
  let (before, rest) ← tagOpening? text
  let rest ← Text.dropStart? word.toList (skip rest)
  let rest ← space? rest
  return (before, rest)

def expressionTag? (word : String) (text : List Char) : Option ((Trim × Expr) × List Char) := do
  let (before, rest) ← tagStart? word text
  let (e, rest) ← logic (fuelFor rest) rest
  let (after, rest) ← tagClosing? (skip rest)
  return ((⟨before, after⟩, e), rest)

def plainText : List Char → List Char × List Char
  | [] => ([], [])
  | '\x7b' :: c :: rest =>
    if c = '\x7b' || c = '%' || c = '#' then ([], '\x7b' :: c :: rest)
    else
      let (text, rest) := plainText (c :: rest)
      ('\x7b' :: text, rest)
  | c :: rest =>
    let (text, rest) := plainText rest
    (c :: text, rest)

def commentEnd? : List Char → Option (Bool × List Char)
  | '-' :: '#' :: '\x7d' :: rest => some (true, rest)
  | '#' :: '\x7d' :: rest => some (false, rest)
  | _ :: rest => commentEnd? rest
  | [] => none

/-- A comment. It has at least one character. -/
def comment? (text : List Char) : Option (Node × List Char) := do
  let (before, rest) ← opening? ['\x7b', '#'] text
  if (closing? ['#', '\x7d'] rest).isSome then none
  else
    let (after, rest) ← commentEnd? rest
    return (.comment ⟨before, after⟩, rest)

def print? (text : List Char) : Option (Node × List Char) := do
  let (before, rest) ← opening? ['\x7b', '\x7b'] text
  let (e, rest) ← expression (skip rest)
  let (after, rest) ← closing? ['\x7d', '\x7d'] (skip rest)
  return (.print ⟨before, after⟩ e, rest)

def assign? (word : String) (everywhere : Bool) (text : List Char) :
    Option (Node × List Char) := do
  let (before, rest) ← tagStart? word text
  let (name, rest) ← name? rest
  let rest ← Text.dropStart? ['='] (skip rest)
  let (e, rest) ← expression (skip rest)
  let (after, rest) ← tagClosing? (skip rest)
  return (.assign ⟨before, after⟩ everywhere (String.ofList name) e, rest)

def strings : Nat → List Char → List String × List Char
  | 0, text => ([], text)
  | fuel + 1, text =>
    match string? (skip text) with
    | some (s, rest) =>
      match skip rest with
      | ',' :: rest =>
        let (more, rest) := strings fuel rest
        (s :: more, rest)
      | _ => ([s], rest)
    | none => ([], text)

def templateNames? (text : List Char) : Option (List String × List Char) :=
  match string? text with
  | some (s, rest) => some ([s], rest)
  | none =>
    match text with
    | '[' :: rest =>
      let (names, rest) := strings (rest.length + 1) rest
      match skip rest with
      | ']' :: rest => some (names, rest)
      | _ => none
    | _ => none

def insert? (text : List Char) : Option (Node × List Char) := do
  let (before, rest) ← tagStart? "include" text
  let (names, rest) ← templateNames? rest
  let rest := skip rest
  let ignoring := do
    let rest ← Text.dropStart? "ignore".toList rest
    Text.dropStart? "missing".toList (skip rest)
  let (after, rest) ← tagClosing? (skip (ignoring.getD rest))
  return (.insert ⟨before, after⟩ names ignoring.isSome, rest)

def rawEnd? : List Char → Option ((List Char × Trim) × List Char)
  | [] => none
  | c :: text =>
    match wordTag? "endraw" (c :: text) with
    | some (last, rest) => some (([], last), rest)
    | none => (rawEnd? text).map fun ((content, last), rest) => ((c :: content, last), rest)

def raw? (text : List Char) : Option (Node × List Char) := do
  let (first, rest) ← wordTag? "raw" text
  let ((content, last), rest) ← rawEnd? rest
  return (.raw first content last, rest)

def loopNames? (text : List Char) : Option ((Option String × String) × List Char) := do
  let (first, rest) ← name? text
  let first := String.ofList first
  match rest with
  | ',' :: rest =>
    let (second, rest) ← name? (skip rest)
    return ((some first, String.ofList second), rest)
  | _ => return ((none, first), rest)

def loopTag? (text : List Char) :
    Option ((Trim × Option String × String × Expr) × List Char) := do
  let (before, rest) ← tagStart? "for" text
  let ((key, item), rest) ← loopNames? rest
  let rest ← space? rest
  let rest ← Text.dropStart? ['i', 'n'] rest
  let rest ← space? rest
  let (container, rest) ← filteredBasic (fuelFor rest) rest <|> filteredList (fuelFor rest) rest
  let (after, rest) ← tagClosing? (skip rest)
  return ((⟨before, after⟩, key, item, container), rest)

def filterTag? (text : List Char) : Option ((Trim × Call) × List Char) := do
  let (before, rest) ← tagStart? "filter" text
  let (filter, rest) ← call (fuelFor rest) rest <|>
    (name? rest).map fun (name, rest) => (.mk (String.ofList name) [], rest)
  let (after, rest) ← tagClosing? (skip rest)
  return ((⟨before, after⟩, filter), rest)

mutual

/-- The nodes at the front of a text. Only in a loop may it be left or its next round begun. -/
def nodes : Nat → Bool → List Char → List Node × List Char
  | 0, _, text => ([], text)
  | fuel + 1, inLoop, text =>
    match node fuel inLoop text with
    | some (n, rest) =>
      let (more, rest) := nodes fuel inLoop rest
      (n :: more, rest)
    | none => ([], text)

def node : Nat → Bool → List Char → Option (Node × List Char)
  | 0, _, _ => none
  | fuel + 1, inLoop, text =>
    match plainText text with
    | ([], _) =>
      match comment? text <|> print? text <|> insert? text <|> assign? "set" false text <|>
          assign? "set_global" true text <|> raw? text with
      | some found => some found
      | none =>
        match loop fuel text with
        | some found => some found
        | none =>
          match filtered fuel text with
          | some found => some found
          | none =>
            match choice fuel inLoop text with
            | some found => some found
            | none =>
              if inLoop then
                (wordTag? "break" text).map (fun (marks, rest) => (Node.stop marks, rest)) <|>
                  (wordTag? "continue" text).map fun (marks, rest) => (Node.next marks, rest)
              else none
    | (content, rest) => some (.text content, rest)

def loop : Nat → List Char → Option (Node × List Char)
  | 0, _ => none
  | fuel + 1, text => do
    let ((first, key, item, container), rest) ← loopTag? text
    let (body, rest) := nodes fuel true rest
    let (otherwise, rest) := bodiesInstead fuel rest
    let (last, rest) ← wordTag? "endfor" rest
    return (.loop first key item container body otherwise last, rest)

/-- The bodies of a loop for when there is nothing to run over. -/
def bodiesInstead : Nat → List Char → List (List Node) × List Char
  | 0, text => ([], text)
  | fuel + 1, text =>
    match wordTag? "else" text with
    | some (_, rest) =>
      let (body, rest) := nodes fuel true rest
      let (more, rest) := bodiesInstead fuel rest
      (body :: more, rest)
    | none => ([], text)

def filtered : Nat → List Char → Option (Node × List Char)
  | 0, _ => none
  | fuel + 1, text => do
    let ((first, filter), rest) ← filterTag? text
    let (body, rest) := nodes fuel false rest
    let (last, rest) ← wordTag? "endfilter" rest
    return (.filtered first filter body last, rest)

def branches : Nat → Bool → List Char → List Branch × List Char
  | 0, _, text => ([], text)
  | fuel + 1, inLoop, text =>
    match expressionTag? "elif" text with
    | some ((marks, condition), rest) =>
      let (body, rest) := nodes fuel inLoop rest
      let (more, rest) := branches fuel inLoop rest
      (.mk marks condition body :: more, rest)
    | none => ([], text)

def choice : Nat → Bool → List Char → Option (Node × List Char)
  | 0, _, _ => none
  | fuel + 1, inLoop, text => do
    let ((marks, condition), rest) ← expressionTag? "if" text
    let (body, rest) := nodes fuel inLoop rest
    let (more, rest) := branches fuel inLoop rest
    let (otherwise, rest) :=
      match wordTag? "else" rest with
      | some (marks, rest) =>
        let (body, rest) := nodes fuel inLoop rest
        (some (marks, body), rest)
      | none => (none, rest)
    let (last, rest) ← wordTag? "endif" rest
    return (.choice (.mk marks condition body :: more) otherwise last, rest)

end

/-- What follows the comments at the front of a template. They are no part of it, and their marks cut
nothing. -/
def skipComments : Nat → List Char → List Char
  | 0, text => text
  | fuel + 1, text =>
    match comment? text with
    | some (_, rest) => skipComments fuel rest
    | none => text

def template (text : List Char) : Option (List Node) :=
  match nodes (4 * text.length + 8) false (skipComments text.length text) with
  | (found, []) => some found
  | _ => none

end Galley.Template.Parser
