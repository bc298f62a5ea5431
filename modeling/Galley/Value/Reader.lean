import Galley.Value.Basic

/-!
Reading values from JSON text. Records keep the order of their keys; of a repeated key the first
place and the last value count.
-/

namespace Galley.Value.Reader

abbrev Step (α : Type) := Option (α × List Char)

private def skipSpace (text : List Char) : List Char :=
  text.dropWhile fun c => c == ' ' || c == '\t' || c == '\n' || c == '\r'

private def hexDigit? (c : Char) : Option Nat :=
  let n := c.toNat
  if '0' ≤ c && c ≤ '9' then some (n - 0x30)
  else if 'a' ≤ c && c ≤ 'f' then some (n - 0x61 + 10)
  else if 'A' ≤ c && c ≤ 'F' then some (n - 0x41 + 10)
  else none

/-- The number of a `\u` escape. -/
private def unit16? (a b c d : Char) : Option Nat := do
  let a ← hexDigit? a
  let b ← hexDigit? b
  let c ← hexDigit? c
  let d ← hexDigit? d
  return ((a * 16 + b) * 16 + c) * 16 + d

private def simpleEscape? (c : Char) : Option Char :=
  if c = '"' then some '"'
  else if c = '\\' then some '\\'
  else if c = '/' then some '/'
  else if c = 'b' then some '\x08'
  else if c = 'f' then some '\x0C'
  else if c = 'n' then some '\n'
  else if c = 'r' then some '\r'
  else if c = 't' then some '\t'
  else none

/-- The rest of a string, after its opening quote, in reverse. Half of a surrogate pair by itself is
refused. -/
private def stringBody : List Char → List Char → Step (List Char)
  | _, [] => none
  | read, '"' :: rest => some (read, rest)
  | read, '\\' :: 'u' :: a :: b :: c :: d :: rest =>
    match unit16? a b c d with
    | none => none
    | some n =>
      if 0xD800 ≤ n && n ≤ 0xDBFF then
        match rest with
        | '\\' :: 'u' :: a :: b :: c :: d :: rest =>
          match unit16? a b c d with
          | none => none
          | some m =>
            if 0xDC00 ≤ m && m ≤ 0xDFFF then
              stringBody (Char.ofNat (0x10000 + (n - 0xD800) * 0x400 + (m - 0xDC00)) :: read) rest
            else none
        | _ => none
      else if 0xDC00 ≤ n && n ≤ 0xDFFF then none
      else stringBody (Char.ofNat n :: read) rest
  | read, '\\' :: c :: rest =>
    match simpleEscape? c with
    | some c => stringBody (c :: read) rest
    | none => none
  | read, c :: rest => if c.toNat < 0x20 then none else stringBody (c :: read) rest

private def string (text : List Char) : Step String :=
  (stringBody [] text).map fun (read, rest) => (String.ofList read.reverse, rest)

private def digitsOf (text : List Char) : Nat :=
  text.foldl (fun n c => n * 10 + (c.toNat - 0x30)) 0

/-- Digits put after a number as long as it stays below `2 ^ 64`, and how many were. -/
private def appendDigits (n count : Nat) : List Char → Nat × Nat
  | [] => (n, count)
  | c :: rest =>
    let longer := n * 10 + (c.toNat - 0x30)
    if longer < Nat.pow 2 64 then appendDigits longer (count + 1) rest else (n, count)

private def powerOfTen (n : Nat) : Double := .ofDecimal false 1 n

/-- A decimal as a double: the digits that fit 64 bits, times a power of ten or over one. Each of them
and the result are rounded. What is too large for a double is refused. -/
private def decimal? (negative : Bool) (whole fraction : List Char) (exponent : Int) :
    Option Double :=
  let (digits, ofWhole) := appendDigits 0 0 whole
  let (digits, ofFraction) := appendDigits digits 0 fraction
  let exponent := exponent + (whole.length - ofWhole : Nat) - ofFraction
  let x : Double := .ofInt digits
  let scaled : Double :=
    if x.isZero then x
    else if 308 < exponent then .infinity false
    else if 0 ≤ exponent then x.mul (powerOfTen exponent.toNat)
    else if -308 ≤ exponent then x.div (powerOfTen (-exponent).toNat)
    else if -616 ≤ exponent then
      (x.div (powerOfTen 308)).div (powerOfTen (-308 - exponent).toNat)
    else .zero false
  if scaled.isFinite then some (if negative then scaled.neg else scaled) else none

/-- An integer that fits 64 bits stays one; any other number, `-0` included, is a double. -/
private def number (text : List Char) : Step Number :=
  let (negative, text) :=
    match text with
    | '-' :: rest => (true, rest)
    | _ => (false, text)
  let whole := text.takeWhile Char.isDigit
  let rest := text.dropWhile Char.isDigit
  let hasLeadingZero := whole.head? == some '0' && whole.length != 1
  if whole.isEmpty || hasLeadingZero then none
  else
    let (fraction, rest, fractionOk) :=
      match rest with
      | '.' :: more =>
        (more.takeWhile Char.isDigit, more.dropWhile Char.isDigit,
          (more.head?.map Char.isDigit).getD false)
      | _ => ([], rest, true)
    let (exponent, rest, exponentOk) :=
      match rest with
      | c :: more =>
        if c == 'e' || c == 'E' then
          let (sign, more) :=
            match more with
            | '-' :: m => ((-1 : Int), m)
            | '+' :: m => (1, m)
            | _ => (1, more)
          let digits := more.takeWhile Char.isDigit
          (some (sign * digitsOf digits), more.dropWhile Char.isDigit, !digits.isEmpty)
        else (none, rest, true)
      | [] => (none, rest, true)
    if !(fractionOk && exponentOk) then none
    else
      let magnitude := digitsOf whole
      let i : Int := if negative then -magnitude else magnitude
      let isInt :=
        fraction.isEmpty && exponent.isNone && !(negative && magnitude == 0) &&
          (Number.fitsSigned i || Number.fitsUnsigned i)
      if isInt then some (.int i, rest)
      else
        (decimal? negative whole fraction (exponent.getD 0)).map fun x => (.double x, rest)

mutual

/-- One value; `fuel` bounds the number of values read. -/
private def value : Nat → List Char → Step Value
  | 0, _ => none
  | fuel + 1, text =>
    match skipSpace text with
    | 'n' :: 'u' :: 'l' :: 'l' :: rest => some (.null, rest)
    | 't' :: 'r' :: 'u' :: 'e' :: rest => some (.bool true, rest)
    | 'f' :: 'a' :: 'l' :: 's' :: 'e' :: rest => some (.bool false, rest)
    | '"' :: rest => (string rest).map fun (s, rest) => (.string s, rest)
    | '[' :: rest =>
      match skipSpace rest with
      | ']' :: rest => some (.list [], rest)
      | rest => items fuel [] rest
    | '{' :: rest =>
      match skipSpace rest with
      | '}' :: rest => some (.record [], rest)
      | rest => fields fuel [] rest
    | text => (number text).map fun (n, rest) => (.number n, rest)

/-- The items of a list up to its closing bracket, after those already read, in reverse. -/
private def items : Nat → List Value → List Char → Step Value
  | 0, _, _ => none
  | fuel + 1, read, text =>
    match value fuel text with
    | none => none
    | some (item, rest) =>
      match skipSpace rest with
      | ',' :: rest => items fuel (item :: read) rest
      | ']' :: rest => some (.list (item :: read).reverse, rest)
      | _ => none

/-- The fields of a record up to its closing brace, after those already read. -/
private def fields : Nat → Record → List Char → Step Value
  | 0, _, _ => none
  | fuel + 1, read, text =>
    match skipSpace text with
    | '"' :: rest =>
      match string rest with
      | none => none
      | some (key, rest) =>
        match skipSpace rest with
        | ':' :: rest =>
          match value fuel rest with
          | none => none
          | some (item, rest) =>
            match skipSpace rest with
            | ',' :: rest => fields fuel (read.put key item) rest
            | '}' :: rest => some (.record (read.put key item), rest)
            | _ => none
        | _ => none
    | _ => none

end

end Reader

def parse? (text : String) : Option Value :=
  let text := text.toList
  match Reader.value (2 * text.length + 2) text with
  | some (value, rest) => if (Reader.skipSpace rest).isEmpty then some value else none
  | none => none

end Galley.Value
