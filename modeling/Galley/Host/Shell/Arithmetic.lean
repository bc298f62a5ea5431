import Galley.Host.Shell.Utility

/-!
Sums of integers and variables, as a script writes them between double brackets.
-/

namespace Galley.Host.Shell.Arithmetic

/-- The text without the blanks in front. -/
def skip (text : List Char) : List Char := text.dropWhile isFieldGap

mutual

/-- The value of the sum in front, given the values of variables, and the text after it. -/
def sum? (value : String → Int) : Nat → List Char → Option (Int × List Char)
  | 0, _ => none
  | fuel + 1, text => do
    let (n, rest) ← product? value fuel text
    terms? value fuel n rest

/-- A value with the terms in front added or taken away, and the text after them. -/
def terms? (value : String → Int) : Nat → Int → List Char → Option (Int × List Char)
  | 0, _, _ => none
  | fuel + 1, n, text =>
    match skip text with
    | '+' :: rest => do
      let (m, rest) ← product? value fuel rest
      terms? value fuel (n + m) rest
    | '-' :: rest => do
      let (m, rest) ← product? value fuel rest
      terms? value fuel (n - m) rest
    | rest => some (n, rest)

def product? (value : String → Int) : Nat → List Char → Option (Int × List Char)
  | 0, _ => none
  | fuel + 1, text => do
    let (n, rest) ← atom? value fuel text
    factors? value fuel n rest

/-- A value multiplied and divided by the factors in front, and the text after them. Quotients are
cut toward zero. -/
def factors? (value : String → Int) : Nat → Int → List Char → Option (Int × List Char)
  | 0, _, _ => none
  | fuel + 1, n, text =>
    match skip text with
    | '*' :: rest => do
      let (m, rest) ← atom? value fuel rest
      factors? value fuel (n * m) rest
    | '/' :: rest => do
      let (m, rest) ← atom? value fuel rest
      if m = 0 then none else factors? value fuel (n.tdiv m) rest
    | '%' :: rest => do
      let (m, rest) ← atom? value fuel rest
      if m = 0 then none else factors? value fuel (n.tmod m) rest
    | rest => some (n, rest)

/-- The value of the number, the variable, or the sum in brackets in front, and the text after
it. -/
def atom? (value : String → Int) : Nat → List Char → Option (Int × List Char)
  | 0, _ => none
  | fuel + 1, text =>
    match skip text with
    | '(' :: rest => do
      let (n, rest) ← sum? value fuel rest
      match skip rest with
      | ')' :: rest => some (n, rest)
      | _ => none
    | '-' :: rest => do
      let (n, rest) ← atom? value fuel rest
      return (-n, rest)
    | '$' :: rest => atom? value fuel rest
    | c :: rest =>
      let run := (c :: rest).takeWhile isNameChar
      let rest := (c :: rest).dropWhile isNameChar
      if run.isEmpty then none
      else if c.isDigit then some (integer run, rest)
      else some (value (String.ofList run), rest)
    | [] => none

end

/-- The value of a sum; of one that is none, zero. -/
def eval (value : String → Int) (text : List Char) : Int :=
  ((sum? value (4 * text.length + 4) text).map (·.1)).getD 0

end Galley.Host.Shell.Arithmetic
