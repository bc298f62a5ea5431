import Galley.Template.Expr.Basic
import Galley.Text.Search

/-!
Lexemes of expressions. Each reader takes a lexeme off the front of a text and gives what is left, or
refuses.
-/

namespace Galley.Template

namespace Lexeme

def isSpace (c : Char) : Bool := c == ' ' || c == '\t' || c == '\r' || c == '\n'

/-- The text without blanks in front. -/
def skip (text : List Char) : List Char := text.dropWhile isSpace

/-- What is left after at least one blank. -/
def space? (text : List Char) : Option (List Char) :=
  match text with
  | c :: rest => if isSpace c then some (skip rest) else none
  | [] => none

def isNameStart (c : Char) : Bool := c.isAlpha || c == '_'

def isNameRest (c : Char) : Bool := c.isAlphanum || c == '_'

def name? (text : List Char) : Option (List Char × List Char) :=
  match text with
  | c :: rest =>
    if isNameStart c then some (c :: rest.takeWhile isNameRest, rest.dropWhile isNameRest) else none
  | [] => none

/-- A string between quotes of one kind; there are no escapes. -/
def string? (text : List Char) : Option (String × List Char) :=
  match text with
  | q :: rest =>
    if q = '"' || q = '\'' || q = '\x60' then
      match rest.dropWhile (· ≠ q) with
      | _ :: after => some (String.ofList (rest.takeWhile (· ≠ q)), after)
      | [] => none
    else none
  | [] => none

/-- Digits without a needless zero in front. -/
def whole? (text : List Char) : Option (List Char × List Char) :=
  match text with
  | '0' :: rest => some (['0'], rest)
  | c :: rest =>
    if c.isDigit then some (c :: rest.takeWhile Char.isDigit, rest.dropWhile Char.isDigit) else none
  | [] => none

/-- A minus sign, when there is one. -/
def sign (text : List Char) : Bool × List Char :=
  match text with
  | '-' :: rest => (true, rest)
  | _ => (false, text)

def natOf (digits : List Char) : Nat := digits.foldl (fun n c => n * 10 + (c.toNat - 0x30)) 0

def int? (text : List Char) : Option (Int × List Char) := do
  let (negative, rest) := sign text
  let (digits, rest) ← whole? rest
  let n : Int := natOf digits
  return (if negative then -n else n, rest)

def double? (text : List Char) : Option (Double × List Char) := do
  let (negative, rest) := sign text
  let (digits, rest) ← whole? rest
  match rest with
  | '.' :: rest =>
    let fraction := rest.takeWhile Char.isDigit
    if fraction.isEmpty then none
    else
      some (.ofDecimal negative (natOf (digits ++ fraction)) (-(fraction.length : Int)),
        rest.dropWhile Char.isDigit)
  | _ => none

/-- A truth value. What follows is not looked at, so longer names are refused. -/
def bool? (text : List Char) : Option (Bool × List Char) :=
  let word (w : String) (b : Bool) : Option (Bool × List Char) :=
    (Text.dropStart? w.toList text).map fun r => (b, r)
  word "true" true <|> word "false" false <|> word "True" true <|> word "False" false

/-- A word that a blank must follow; the blank is taken. -/
def keyword? (word : String) (text : List Char) : Option (List Char) :=
  match Text.dropStart? word.toList text with
  | some (c :: rest) => if isSpace c then some rest else none
  | _ => none

mutual

def path? : Nat → List Char → Option (List Char × List Char)
  | 0, _ => none
  | fuel + 1, text =>
    match name? text with
    | none => none
    | some (name, rest) =>
      let (more, after) := steps fuel rest
      some (name ++ more, after)

def steps : Nat → List Char → List Char × List Char
  | 0, text => ([], text)
  | fuel + 1, text =>
    match text with
    | '.' :: rest =>
      let part := rest.takeWhile isNameRest
      if part.isEmpty then ([], text)
      else
        let (more, after) := steps fuel (rest.dropWhile isNameRest)
        ('.' :: part ++ more, after)
    | '[' :: rest =>
      match index? fuel rest with
      | some (inside, ']' :: after) =>
        let (more, after) := steps fuel after
        ('[' :: inside ++ ']' :: more, after)
      | _ => ([], text)
    | _ => ([], text)

/-- What stands in brackets: an integer, a string or a path, as it is written. -/
def index? : Nat → List Char → Option (List Char × List Char)
  | 0, _ => none
  | fuel + 1, text =>
    match int? text, string? text with
    | some (_, rest), _ | none, some (_, rest) =>
      some (text.take (text.length - rest.length), rest)
    | none, none => path? fuel text

end

end Lexeme

end Galley.Template
