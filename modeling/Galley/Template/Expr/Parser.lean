import Galley.Template.Expr.Lexeme

/-!
The grammar of expressions. Alternatives are tried in order and the first that fits is kept, even
when what follows does not fit; blanks may stand between lexemes. Every reader takes fuel, of which
a nested reader gets one unit less.

Calls are those of functions, testers and filters. A call with a namespace, `space::name(...)`, which is
that of a macro, is not read.
-/

namespace Galley.Template.Parser

open Lexeme

def mathOp? : List Char → Option (MathOp × List Char)
  | '+' :: rest => some (.add, rest)
  | '-' :: rest => some (.sub, rest)
  | '*' :: rest => some (.mul, rest)
  | '/' :: rest => some (.div, rest)
  | '%' :: rest => some (.mod, rest)
  | _ => none

def comparison? : List Char → Option (LogicOp × List Char)
  | '<' :: '=' :: rest => some (.le, rest)
  | '>' :: '=' :: rest => some (.ge, rest)
  | '>' :: rest => some (.gt, rest)
  | '<' :: rest => some (.lt, rest)
  | '=' :: '=' :: rest => some (.eq, rest)
  | '!' :: '=' :: rest => some (.ne, rest)
  | _ => none

/-- A chain of operands with products made before sums, each from the left. `sum` holds what the
current product is added to. -/
def sums (sum : Option (Expr × MathOp)) (product : Expr) : List (MathOp × Expr) → Expr
  | [] =>
    match sum with
    | none => product
    | some (left, op) => .ofAtom (.math op left product)
  | (op, operand) :: rest =>
    if op.isFactor then sums sum (.ofAtom (.math op product operand)) rest
    else
      match sum with
      | none => sums (some (product, op)) operand rest
      | some (left, before) => sums (some (.ofAtom (.math before left product), op)) operand rest

def disjuncts (sum : Option Expr) (product : Expr) : List (LogicOp × Expr) → Expr
  | [] =>
    match sum with
    | none => product
    | some left => .ofAtom (.logic .or left product)
  | (op, operand) :: rest =>
    if op = .and then disjuncts sum (.ofAtom (.logic .and product operand)) rest
    else
      match sum with
      | none => disjuncts (some product) operand rest
      | some left => disjuncts (some (.ofAtom (.logic .or left product))) operand rest

/-- Adjacent strings of a concatenation are put together; nothing but strings is one string. -/
def joinParts (parts : List Atom) : Atom :=
  let step (part : Atom) (joined : List Atom) : List Atom :=
    match part, joined with
    | .string a, .string b :: rest => .string (a ++ b) :: rest
    | .string a, rest => if a.isEmpty then rest else .string a :: rest
    | part, rest => part :: rest
  let isString : Atom → Bool
    | .string _ => true
    | _ => false
  if parts.all isString then
    .string (String.join (parts.map fun
      | .string s => s
      | _ => ""))
  else .concat ((parts.foldr step []).filter fun
    | .string s => !s.isEmpty
    | _ => true)

mutual

/-- A value without an operator: a truth value, a test, a call, a path or a number. -/
def basicValue : Nat → List Char → Option (Expr × List Char)
  | 0, _ => none
  | fuel + 1, text =>
    match bool? text with
    | some (b, rest) => some (.ofAtom (.bool b), rest)
    | none =>
      match test fuel text with
      | some found => some found
      | none =>
        match call fuel text with
        | some (c, rest) => some (.ofAtom (.call c), rest)
        | none =>
          match path? (text.length + 1) text with
          | some (p, rest) => some (.ofAtom (.path (String.ofList p)), rest)
          | none =>
            match double? text with
            | some (d, rest) => some (.ofAtom (.double d), rest)
            | none => (int? text).map fun (i, rest) => (.ofAtom (.int i), rest)

/-- A test of a path, negated or not. A negated one is tried first. -/
def test : Nat → List Char → Option (Expr × List Char)
  | 0, _ => none
  | fuel + 1, text => do
    let (subject, rest) ← path? (text.length + 1) text
    let rest ← Text.dropStart? "is".toList (skip rest)
    let subject := String.ofList subject
    let rest := skip rest
    let negatedTest := do
      let rest ← Text.dropStart? "not".toList rest
      testCall fuel (skip rest)
    match negatedTest with
    | some ((name, args), rest) => return (.ofAtom (.test subject true name args), rest)
    | none =>
      let ((name, args), rest) ← testCall fuel rest
      return (.ofAtom (.test subject false name args), rest)

/-- The name of a test and its arguments, if any stand in parentheses. -/
def testCall : Nat → List Char → Option ((String × List Expr) × List Char)
  | 0, _ => none
  | fuel + 1, text => do
    let (name, rest) ← name? text
    let name := String.ofList name
    let arguments : Option (List Expr × List Char) :=
      match skip rest with
      | '(' :: inside =>
        match argument fuel (skip inside) with
        | none => none
        | some (first, after) =>
          let (more, after) := moreArguments fuel after
          match skip after with
          | ')' :: after => some (first :: more, after)
          | _ => none
      | _ => none
    match arguments with
    | some (args, after) => return ((name, args), after)
    | none => return ((name, []), rest)

def moreArguments : Nat → List Char → List Expr × List Char
  | 0, text => ([], text)
  | fuel + 1, text =>
    match skip text with
    | ',' :: rest =>
      match argument fuel (skip rest) with
      | some (arg, rest) =>
        let (more, rest) := moreArguments fuel rest
        (arg :: more, rest)
      | none => ([], text)
    | _ => ([], text)

def argument : Nat → List Char → Option (Expr × List Char)
  | 0, _ => none
  | fuel + 1, text =>
    match logic fuel text with
    | some found => some found
    | none => filteredList fuel text

/-- A call with named arguments; a comma may follow the last. -/
def call : Nat → List Char → Option (Call × List Char)
  | 0, _ => none
  | fuel + 1, text => do
    let (name, rest) ← name? text
    match skip rest with
    | '(' :: rest =>
      let (args, rest) :=
        match namedArgument fuel (skip rest) with
        | none => ([], rest)
        | some (first, rest) =>
          let (more, rest) := moreNamed fuel rest
          let rest :=
            match skip rest with
            | ',' :: rest => rest
            | _ => rest
          (first :: more, rest)
      match skip rest with
      | ')' :: rest => some (.mk (String.ofList name) args, rest)
      | _ => none
    | _ => none

def namedArgument : Nat → List Char → Option ((String × Expr) × List Char)
  | 0, _ => none
  | fuel + 1, text => do
    let (name, rest) ← name? text
    match skip rest with
    | '=' :: rest =>
      let (value, rest) ← argument fuel (skip rest)
      return ((String.ofList name, value), rest)
    | _ => none

def moreNamed : Nat → List Char → List (String × Expr) × List Char
  | 0, text => ([], text)
  | fuel + 1, text =>
    match skip text with
    | ',' :: rest =>
      match namedArgument fuel (skip rest) with
      | some (arg, rest) =>
        let (more, rest) := moreNamed fuel rest
        (arg :: more, rest)
      | none => ([], text)
    | _ => ([], text)

def operand : Nat → List Char → Option (Expr × List Char)
  | 0, _ => none
  | fuel + 1, text =>
    let inParentheses : Option (Expr × List Char) :=
      match text with
      | '(' :: inside =>
        match basic fuel (skip inside) with
        | some (e, rest) =>
          match skip rest with
          | ')' :: rest => some (e, rest)
          | _ => none
        | none => none
      | _ => none
    match inParentheses with
    | some found => some found
    | none => basicValue fuel text

def moreOperands : Nat → List Char → List (MathOp × Expr) × List Char
  | 0, text => ([], text)
  | fuel + 1, text =>
    match mathOp? (skip text) with
    | some (op, rest) =>
      match operand fuel (skip rest) with
      | some (e, rest) =>
        let (more, rest) := moreOperands fuel rest
        ((op, e) :: more, rest)
      | none => ([], text)
    | none => ([], text)

/-- Arithmetic without filters. -/
def basic : Nat → List Char → Option (Expr × List Char)
  | 0, _ => none
  | fuel + 1, text => do
    let (first, rest) ← operand fuel text
    let (more, rest) := moreOperands fuel rest
    return (sums none first more, rest)

def filters : Nat → List Char → List Call × List Char
  | 0, text => ([], text)
  | fuel + 1, text =>
    match skip text with
    | '|' :: rest =>
      let rest := skip rest
      let found : Option (Call × List Char) :=
        match call fuel rest with
        | some found => some found
        | none => (name? rest).map fun (name, rest) => (.mk (String.ofList name) [], rest)
      match found with
      | some (filter, rest) =>
        let (more, rest) := filters fuel rest
        (filter :: more, rest)
      | none => ([], text)
    | _ => ([], text)

def filteredBasic : Nat → List Char → Option (Expr × List Char)
  | 0, _ => none
  | fuel + 1, text => do
    let (e, rest) ← basic fuel text
    let (fs, rest) := filters fuel rest
    return (e.withFilters fs, rest)

def part : Nat → List Char → Option (Atom × List Char)
  | 0, _ => none
  | fuel + 1, text =>
    match call fuel text with
    | some (c, rest) => some (.call c, rest)
    | none =>
      match double? text with
      | some (d, rest) => some (.double d, rest)
      | none =>
        match int? text with
        | some (i, rest) => some (.int i, rest)
        | none =>
          match string? text with
          | some (s, rest) => some (.string s, rest)
          | none =>
            (path? (text.length + 1) text).map fun (p, rest) => (.path (String.ofList p), rest)

def moreParts : Nat → List Char → List Atom × List Char
  | 0, text => ([], text)
  | fuel + 1, text =>
    match skip text with
    | '~' :: rest =>
      match part fuel (skip rest) with
      | some (p, rest) =>
        let (more, rest) := moreParts fuel rest
        (p :: more, rest)
      | none => ([], text)
    | _ => ([], text)

def filteredString : Nat → List Char → Option (Expr × List Char)
  | 0, _ => none
  | fuel + 1, text => do
    let concatenation : Option (Atom × List Char) :=
      match part fuel text with
      | some (first, rest) =>
        match moreParts fuel rest with
        | ([], _) => none
        | (more, rest) => some (joinParts (first :: more), rest)
      | none => none
    let (atom, rest) ←
      concatenation <|> (string? text).map fun (s, rest) => (Atom.string s, rest)
    let (fs, rest) := filters fuel rest
    return (.mk atom false fs, rest)

/-- The further operands of arithmetic whose operands have filters of their own. -/
def moreFiltered : Nat → List Char → List (MathOp × Expr) × List Char
  | 0, text => ([], text)
  | fuel + 1, text =>
    match mathOp? (skip text) with
    | some (op, rest) =>
      match filteredBasic fuel (skip rest) with
      | some (e, rest) =>
        let (more, rest) := moreFiltered fuel rest
        ((op, e) :: more, rest)
      | none => ([], text)
    | none => ([], text)

def side : Nat → List Char → Option (Expr × List Char)
  | 0, _ => none
  | fuel + 1, text =>
    match filteredString fuel text with
    | some found => some found
    | none => do
      let (first, rest) ← filteredBasic fuel text
      let (more, rest) := moreFiltered fuel rest
      return (sums none first more, rest)

def compared : Nat → List Char → Option (Expr × List Char)
  | 0, _ => none
  | fuel + 1, text => do
    let (left, rest) ← side fuel text
    let comparison : Option (Expr × List Char) := do
      let (op, rest) ← comparison? (skip rest)
      let (right, rest) ← side fuel (skip rest)
      return (.ofAtom (.logic op left right), rest)
    match comparison with
    | some found => some found
    | none => return (left, rest)

def membership : Nat → List Char → Option (Expr × List Char)
  | 0, _ => none
  | fuel + 1, text => do
    let (left, rest) ← filteredString fuel text <|> filteredBasic fuel text
    let (negated, rest) :=
      match keyword? "not" (skip rest) with
      | some rest => (true, rest)
      | none => (false, rest)
    let rest ← Text.dropStart? "in".toList (skip rest)
    let rest := skip rest
    let (right, rest) ← filteredString fuel rest <|> filteredList fuel rest <|>
      (path? (rest.length + 1) rest).map fun (p, rest) => (.ofAtom (.path (String.ofList p)), rest)
    return (.ofAtom (.elem negated left right), rest)

/-- A truth value: a membership, a comparison, or a truth expression in parentheses. The negation in
front of it is the only one that counts. -/
def truth : Nat → List Char → Option (Expr × List Char)
  | 0, _ => none
  | fuel + 1, text =>
    let (negated, rest) :=
      match keyword? "not" text with
      | some rest => (true, skip rest)
      | none => (false, text)
    let plain : Option (Expr × List Char) :=
      match membership fuel rest with
      | some found => some found
      | none => compared fuel rest
    match plain with
    | some (e, rest) => some (e.withNegation negated, rest)
    | none =>
      match text with
      | '(' :: inside =>
        match logic fuel (skip inside) with
        | some (e, rest) =>
          match skip rest with
          | ')' :: rest => some (e.withNegation false, rest)
          | _ => none
        | none => none
      | _ => none

def moreTruths : Nat → List Char → List (LogicOp × Expr) × List Char
  | 0, text => ([], text)
  | fuel + 1, text =>
    let operator : Option (LogicOp × List Char) :=
      match keyword? "or" (skip text) with
      | some rest => some (.or, rest)
      | none => (keyword? "and" (skip text)).map fun rest => (.and, rest)
    match operator with
    | some (op, rest) =>
      match truth fuel (skip rest) with
      | some (e, rest) =>
        let (more, rest) := moreTruths fuel rest
        ((op, e) :: more, rest)
      | none => ([], text)
    | none => ([], text)

def logic : Nat → List Char → Option (Expr × List Char)
  | 0, _ => none
  | fuel + 1, text => do
    let (first, rest) ← truth fuel text
    let (more, rest) := moreTruths fuel rest
    return (disjuncts none first more, rest)

/-- The items of a list up to its bracket; each but the last has a comma after it. -/
def items : Nat → List Char → List Expr × List Char
  | 0, text => ([], text)
  | fuel + 1, text =>
    match truth fuel (skip text) with
    | some (e, rest) =>
      match skip rest with
      | ',' :: rest =>
        let (more, rest) := items fuel rest
        (e :: more, rest)
      | _ => ([e], rest)
    | none => ([], text)

def filteredList : Nat → List Char → Option (Expr × List Char)
  | 0, _ => none
  | fuel + 1, text =>
    match text with
    | '[' :: rest =>
      let (es, rest) := items fuel rest
      match skip rest with
      | ']' :: rest =>
        let (fs, rest) := filters fuel rest
        some (.mk (.list es) false fs, rest)
      | _ => none
    | _ => none

end

/-- Fuel that suffices for any expression in a text: no reader nests deeper than a dozen levels for
each character. -/
def fuelFor (text : List Char) : Nat := 16 * text.length + 32

def expression (text : List Char) : Option (Expr × List Char) := argument (fuelFor text) text

end Galley.Template.Parser
