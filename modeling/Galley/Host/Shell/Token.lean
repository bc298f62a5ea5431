import Galley.Host.Shell.Script

/-!
The tokens of a script: words, redirections and operators.
-/

namespace Galley.Host.Shell

/-- A token. -/
inductive Token where
  | word (word : Word)
  | redirection (target : Redirection)
  /-- A sign between commands. A line end counts as a semicolon. -/
  | operator (text : String)
deriving DecidableEq, Repr

namespace Token

/-- The text before the bracket that closes `depth + 1` open ones, and the text after it. Brackets
between quotes do not count. -/
def closing? (depth : Nat) (quote : Option Char) : List Char → Option (List Char × List Char)
  | [] => none
  | '\\' :: c :: rest => do
    let (inner, rest) ← closing? depth quote rest
    return ('\\' :: c :: inner, rest)
  | c :: rest =>
    let next : Option (Option (Nat × Option Char)) :=
      match quote with
      | some q => some (some (depth, if c = q then none else some q))
      | none =>
        if c = '\'' || c = '"' then some (some (depth, some c))
        else if c = '(' then some (some (depth + 1, none))
        else if c = ')' then
          if depth = 0 then some none else some (some (depth - 1, none))
        else some (some (depth, none))
    match next with
    | some none => some ([], rest)
    | some (some (depth, quote)) => do
      let (inner, rest) ← closing? depth quote rest
      return (c :: inner, rest)
    | none => none

def reference? (quoted : Bool) : List Char → Option (Piece × List Char)
  | '(' :: '(' :: rest => do
    let (inner, rest) ← closing? 1 none rest
    return (.arithmetic inner.dropLast, rest)
  | '(' :: rest => do
    let (script, rest) ← closing? 0 none rest
    return (.output script quoted, rest)
  | '\x7b' :: rest => do
    let (body, rest) ← Text.splitAtFirst? ['\x7d'] rest
    match Text.splitAtFirst? [':', '-'] body with
    | some (name, fallback) =>
      return (.variable (String.ofList name) (some fallback) quoted, rest)
    | none => return (.variable (String.ofList body) none quoted, rest)
  | c :: rest =>
    if c.isDigit || "$#?@*!".toList.contains c then
      some (.variable (String.singleton c) none quoted, rest)
    else if isNameChar c then
      let name := (c :: rest).takeWhile isNameChar
      some (.variable (String.ofList name) none quoted, (c :: rest).dropWhile isNameChar)
    else none
  | [] => none

def quoted? : Nat → List Char → Option (Word × List Char)
  | 0, _ => none
  | _, [] => none
  | _, '"' :: rest => some ([], rest)
  | fuel + 1, '\\' :: c :: rest => do
    let (pieces, rest) ← quoted? fuel rest
    let escaped := if "$\x60\"\\".toList.contains c then [c] else ['\\', c]
    return (.literal escaped :: pieces, rest)
  | fuel + 1, '$' :: rest =>
    match reference? true rest with
    | some (piece, rest) => do
      let (pieces, rest) ← quoted? fuel rest
      return (piece :: pieces, rest)
    | none => do
      let (pieces, rest) ← quoted? fuel rest
      return (.literal ['$'] :: pieces, rest)
  | fuel + 1, '\x60' :: rest => do
    let (script, rest) ← Text.splitAtFirst? ['\x60'] rest
    let (pieces, rest) ← quoted? fuel rest
    return (.output script true :: pieces, rest)
  | fuel + 1, c :: rest => do
    let (pieces, rest) ← quoted? fuel rest
    return (.literal [c] :: pieces, rest)

def endsWord (c : Char) : Bool := " \t\n;&|<>()".toList.contains c

/-- The pieces at the front of a text, up to the end of the word, and the text after them. -/
def word? : Nat → List Char → Option (Word × List Char)
  | 0, _ => none
  | _, [] => some ([], [])
  | fuel + 1, c :: rest =>
    if endsWord c then some ([], c :: rest)
    else do
      let (pieces, rest) ← front? c rest
      let (more, rest) ← word? fuel rest
      return (pieces ++ more, rest)
where
  /-- The pieces that begin with a character. -/
  front? : Char → List Char → Option (Word × List Char)
    | '\'', rest => do
      let (text, rest) ← Text.splitAtFirst? ['\''] rest
      return ([.literal text], rest)
    | '"', rest => do
      let (pieces, rest) ← quoted? (rest.length + 1) rest
      return (if pieces.isEmpty then [.literal []] else pieces, rest)
    | '\x60', rest => do
      let (script, rest) ← Text.splitAtFirst? ['\x60'] rest
      return ([.output script false], rest)
    | '\\', '\n' :: rest => some ([], rest)
    | '\\', c :: rest => some ([.literal [c]], rest)
    | '$', rest =>
      match reference? false rest with
      | some (piece, rest) => some ([piece], rest)
      | none => some ([.plain '$'], rest)
    | c, rest => some ([.plain c], rest)

/-- The stream before the sign of a redirection, and the text from the sign on. -/
def streamBefore : List Char → Nat × List Char
  | '1' :: '>' :: rest => (1, '>' :: rest)
  | '2' :: '>' :: rest => (2, '>' :: rest)
  | '0' :: '<' :: rest => (0, '<' :: rest)
  | rest => (1, rest)

def target? (rest : List Char) : Option (Word × List Char) :=
  let rest := rest.dropWhile (· == ' ')
  word? (rest.length + 1) rest

def redirection? (text : List Char) : Option (Redirection × List Char) :=
  let (stream, rest) := streamBefore text
  match rest with
  | '>' :: '&' :: '1' :: rest => some (.duplicate stream 1, rest)
  | '>' :: '&' :: '2' :: rest => some (.duplicate stream 2, rest)
  | '>' :: '>' :: rest => (target? rest).map fun (path, rest) => (.file stream path true, rest)
  | '>' :: rest => (target? rest).map fun (path, rest) => (.file stream path false, rest)
  | '<' :: '<' :: _ => none
  | '<' :: rest => (target? rest).map fun (path, rest) => (.input path, rest)
  | _ => none

def operator? : List Char → Option (String × List Char)
  | '&' :: '&' :: rest => some ("&&", rest)
  | '|' :: '|' :: rest => some ("||", rest)
  | '|' :: rest => some ("|", rest)
  | ';' :: rest | '\n' :: rest => some (";", rest)
  | '(' :: rest => some ("(", rest)
  | ')' :: rest => some (")", rest)
  | _ => none

def tokens? : Nat → List Char → Option (List Token)
  | 0, _ => none
  | fuel + 1, text =>
    let text := text.dropWhile fun c => c == ' ' || c == '\t'
    match redirection? text with
    | some (r, rest) => (tokens? fuel rest).map (.redirection r :: ·)
    | none =>
      match operator? text with
      | some (sign, rest) => (tokens? fuel rest).map (.operator sign :: ·)
      | none =>
        match text with
        | [] => some []
        | '#' :: rest => tokens? fuel (rest.dropWhile (· ≠ '\n'))
        | '\\' :: '\n' :: rest => tokens? fuel rest
        | c :: rest =>
          if endsWord c then none
          else do
            let (pieces, rest) ← word? ((c :: rest).length + 1) (c :: rest)
            (tokens? fuel rest).map (.word pieces :: ·)

end Token

end Galley.Host.Shell
