import Galley.Number.Double
import Galley.Text.Hex
import Galley.Text.Search
import Galley.Toml.Basic

/-!
Scalars of TOML: strings of four kinds, and the numbers, truth values, dates and times that stand
without quotes.
-/

namespace Galley.Toml.Scalar

def isBlank (c : Char) : Bool := c == ' ' || c == '\t'

/-- A control character that may not stand in a document by itself. -/
def isControl (c : Char) : Bool := (c.toNat < 0x20 && c != '\t') || c.toNat == 0x7F

def newline? : List Char → Option (List Char)
  | '\n' :: rest => some rest
  | '\r' :: '\n' :: rest => some rest
  | _ => none

def charOf? (n : Nat) : Option Char :=
  if n < 0xD800 || (0xDFFF < n && n < 0x110000) then some (Char.ofNat n) else none

def hexChar? (count : Nat) (text : List Char) : Option (Char × List Char) := do
  let digits := text.take count
  if digits.length < count then none
  else
    let values ← digits.mapM Text.Hex.value?
    let c ← charOf? (values.foldl (fun n d => n * 16 + d) 0)
    return (c, text.drop count)

def escape? : List Char → Option (Char × List Char)
  | 'b' :: rest => some ('\x08', rest)
  | 't' :: rest => some ('\t', rest)
  | 'n' :: rest => some ('\n', rest)
  | 'f' :: rest => some ('\x0C', rest)
  | 'r' :: rest => some ('\r', rest)
  | 'e' :: rest => some ('\x1b', rest)
  | '"' :: rest => some ('"', rest)
  | '\\' :: rest => some ('\\', rest)
  | 'x' :: rest => hexChar? 2 rest
  | 'u' :: rest => hexChar? 4 rest
  | 'U' :: rest => hexChar? 8 rest
  | _ => none

def basic? : Nat → List Char → Option (List Char × List Char)
  | 0, _ => none
  | fuel + 1, text =>
    match text with
    | [] => none
    | '"' :: rest => some ([], rest)
    | '\\' :: rest => do
      let (c, rest) ← escape? rest
      let (more, rest) ← basic? fuel rest
      return (c :: more, rest)
    | c :: rest =>
      if isControl c then none
      else (basic? fuel rest).map fun (more, rest) => (c :: more, rest)

/-- The rest of a string on one line, without escapes. -/
def literal? : List Char → Option (List Char × List Char)
  | [] => none
  | c :: rest =>
    if c = '\'' then some ([], rest)
    else if isControl c then none
    else (literal? rest).map fun (more, rest) => (c :: more, rest)

/-- The quotes that end a string of several lines: three, with up to two of the string's own before
them. -/
def closing? (quote : Char) (text : List Char) : Option (List Char × List Char) :=
  let count := (text.takeWhile (· == quote)).length
  if count < 3 then none
  else
    let own := min (count - 3) 2
    some (List.replicate own quote, text.drop (own + 3))

def dropBlankLines : List Char → List Char
  | '\r' :: '\n' :: rest => dropBlankLines rest
  | c :: rest => if isBlank c || c == '\n' then dropBlankLines rest else c :: rest
  | [] => []

/-- What is left after the blanks and line ends that an escaped line end takes with it; there must
be a line end among them. -/
def continuation? (text : List Char) : Option (List Char) :=
  (newline? (text.dropWhile isBlank)).map dropBlankLines

/-- The rest of a string of several lines. Only with double quotes does it have escapes. Line ends
stay as they are written. -/
def multiline? (quote : Char) : Nat → List Char → Option (List Char × List Char)
  | 0, _ => none
  | fuel + 1, text =>
    match closing? quote text with
    | some found => some found
    | none =>
      match text with
      | [] => none
      | c :: rest =>
        if c = '\\' && quote = '"' then
          match continuation? rest with
          | some rest => multiline? quote fuel rest
          | none => do
            let (c, rest) ← escape? rest
            let (more, rest) ← multiline? quote fuel rest
            return (c :: more, rest)
        else
          if isControl c && (newline? (c :: rest)).isNone then none
          else (multiline? quote fuel rest).map fun (more, rest) => (c :: more, rest)

/-- A string of any kind. A line end right after three quotes does not count. -/
def string? (text : List Char) : Option (String × List Char) :=
  let fuel := text.length + 1
  let afterNewline (rest : List Char) : List Char := (newline? rest).getD rest
  let found :=
    match text with
    | '"' :: '"' :: '"' :: rest => multiline? '"' fuel (afterNewline rest)
    | '\'' :: '\'' :: '\'' :: rest => multiline? '\'' fuel (afterNewline rest)
    | '"' :: rest => basic? fuel rest
    | '\'' :: rest => literal? rest
    | _ => none
  found.map fun (s, rest) => (String.ofList s, rest)

/-! ## Without quotes -/

/-- Digits, each underscore between two of them, without the underscores. -/
def digits? (isDigit : Char → Bool) (text : List Char) : Option (List Char) :=
  let pieces := Text.splitOnChar (· == '_') text
  if pieces.all fun piece => !piece.isEmpty && piece.all isDigit then some pieces.flatten else none

def natOf (base : Nat) (digits : List Char) : Nat :=
  digits.foldl (fun n c => n * base + (Text.Hex.value? c).getD 0) 0

/-- An integer of 128 bits, with a sign or without. -/
def sized (i : Int) : Option Value :=
  if -Int.pow 2 127 ≤ i && i < Int.pow 2 128 then some (.int i) else none

def sign : List Char → Bool × List Char
  | '-' :: rest => (true, rest)
  | '+' :: rest => (false, rest)
  | text => (false, text)

/-- Decimal digits without a needless zero in front. -/
def decimal? (text : List Char) : Option (List Char) := do
  let digits ← digits? Char.isDigit text
  if digits.head? = some '0' && digits.length != 1 then none else some digits

def int? (text : List Char) : Option Value :=
  match text with
  | '0' :: 'x' :: rest => (digits? (fun c => (Text.Hex.value? c).isSome) rest).bind fun ds =>
    sized (natOf 16 ds)
  | '0' :: 'o' :: rest => (digits? (fun c => '0' ≤ c && c ≤ '7') rest).bind fun ds =>
    sized (natOf 8 ds)
  | '0' :: 'b' :: rest => (digits? (fun c => c == '0' || c == '1') rest).bind fun ds =>
    sized (natOf 2 ds)
  | _ =>
    let (negative, rest) := sign text
    (decimal? rest).bind fun ds =>
      let n : Int := natOf 10 ds
      sized (if negative then -n else n)

/-- Whether a text is a number with a fraction, an exponent or both, or a special one. A number that
no double comes near to is none. -/
def isFloat (text : List Char) : Bool :=
  let (_, rest) := sign text
  if rest = ['i', 'n', 'f'] || rest = ['n', 'a', 'n'] then true
  else
    let isExponentMark (c : Char) : Bool := c == 'e' || c == 'E'
    let mantissa := rest.takeWhile (!isExponentMark ·)
    let exponent := rest.dropWhile (!isExponentMark ·)
    let whole := mantissa.takeWhile (· ≠ '.')
    let fraction := mantissa.dropWhile (· ≠ '.')
    let power? : Option Int :=
      match exponent with
      | [] => some 0
      | _ :: power =>
        let (negative, digits) := sign power
        (digits? Char.isDigit digits).map fun ds =>
          let n : Int := natOf 10 ds
          if negative then -n else n
    let fraction? : Option (List Char) :=
      match fraction with
      | [] => some []
      | _ :: digits => digits? Char.isDigit digits
    match decimal? whole, fraction?, power? with
    | some whole, some digits, some power =>
      !(fraction.isEmpty && exponent.isEmpty) &&
        (Double.ofDecimal false (natOf 10 (whole ++ digits)) (power - digits.length)).isFinite
    | _, _, _ => false

/-- A number of exactly so many digits, in bounds. -/
def field? (count low high : Nat) (text : List Char) : Option (Nat × List Char) :=
  let digits := text.take count
  let n := natOf 10 digits
  if digits.length == count && digits.all Char.isDigit && low ≤ n && n ≤ high then
    some (n, text.drop count)
  else none

def daysOf (year month : Nat) : Nat :=
  if month = 2 then
    if (year % 4 = 0 && year % 100 != 0) || year % 400 = 0 then 29 else 28
  else if month = 4 || month = 6 || month = 9 || month = 11 then 30
  else 31

def dropDate? (text : List Char) : Option (List Char) := do
  let (year, rest) ← field? 4 0 9999 text
  let rest ← Text.dropStart? ['-'] rest
  let (month, rest) ← field? 2 1 12 rest
  let rest ← Text.dropStart? ['-'] rest
  let (_, rest) ← field? 2 1 (daysOf year month) rest
  return rest

/-- What is left after a time of day; seconds may be missing. -/
def dropTime? (text : List Char) : Option (List Char) := do
  let (_, rest) ← field? 2 0 23 text
  let rest ← Text.dropStart? [':'] rest
  let (_, rest) ← field? 2 0 59 rest
  match rest with
  | ':' :: rest => do
    let (_, rest) ← field? 2 0 60 rest
    match rest with
    | '.' :: digits =>
      if (digits.head?.map Char.isDigit).getD false then some (digits.dropWhile Char.isDigit) else none
    | _ => some rest
  | _ => some rest

def isOffset (text : List Char) : Bool :=
  match text with
  | [] | ['Z'] | ['z'] => true
  | c :: rest =>
    (c == '+' || c == '-') &&
      (match field? 2 0 23 rest with
        | some (_, ':' :: rest) => (field? 2 0 59 rest).any fun found => found.2.isEmpty
        | _ => false)

/-- Whether a text is a date, a time, or both with or without an offset. -/
def isDate (text : List Char) : Bool :=
  match dropDate? text with
  | some [] => true
  | some (c :: rest) => (c == 'T' || c == 't' || c == ' ') && (dropTime? rest).any isOffset
  | none => dropTime? text == some []

/-- The value of a text without quotes. -/
def plain? (text : List Char) : Option Value :=
  if text = "true".toList then some (.bool true)
  else if text = "false".toList then some (.bool false)
  else if isDate text then some .date
  else
    match int? text with
    | some v => some v
    | none => if isFloat text then some .float else none

/-- A character of a text without quotes. -/
def isPlain (c : Char) : Bool :=
  c.isAlphanum || c == '_' || c == '+' || c == '-' || c == '.' || c == ':'

/-- A value without quotes. A date and a time may have a blank between them. -/
def unquoted? (text : List Char) : Option (Value × List Char) :=
  let run := text.takeWhile isPlain
  let rest := text.dropWhile isPlain
  match rest with
  | ' ' :: c :: more =>
    if c.isDigit && dropDate? run == some [] then
      (plain? (run ++ ' ' :: (c :: more).takeWhile isPlain)).map fun v =>
        (v, (c :: more).dropWhile isPlain)
    else (plain? run).map fun v => (v, rest)
  | _ => (plain? run).map fun v => (v, rest)

end Galley.Toml.Scalar
