import Galley.Template.Function
import Galley.Template.Scope
import Galley.Template.Tester

/-!
Evaluation of expressions in a scope. The same expression is evaluated as a value, as a truth value
and as a number by rules of their own.
-/

namespace Galley.Template

/-- A number, or nothing where arithmetic has no number for a result. -/
abbrev MathResult := Except Error (Option Number)

/-- A double as a number, when it is finite. -/
def finite? (d : Double) : Option Number := if d.isFinite then some (.double d) else none

/-- An operation on integers of 64 bits, with a sign if both operands fit that, else without. -/
def onIntegers (op : MathOp) (a b : Int) (exact : Int) : Except Error (Option Number) :=
  if Number.fitsSigned a && Number.fitsSigned b then
    if Number.fitsSigned exact then .ok (some (.int exact)) else .error (.overflow op a b true)
  else if Number.fitsUnsigned exact then .ok (some (.int exact))
  else .error (.overflow op a b false)

/-- Whether two integers are of one width, so that they are not turned into doubles. -/
def sameWidth (a b : Int) : Bool :=
  (Number.fitsSigned a && Number.fitsSigned b) || (Number.fitsUnsigned a && Number.fitsUnsigned b)

/-- The quotient: an integer when it is integral, cut to 64 bits with a sign. -/
def quotient (a b : Double) : Option Number :=
  let q := a.div b
  match q.toInt? with
  | some i =>
    if q.isIntegral then some (.int (max (-Int.pow 2 63) (min (Int.pow 2 63 - 1) i))) else some (.double q)
  | none => none

def ring (op : MathOp) (onInts : Int → Int → Int) (onDoubles : Double → Double → Double)
    (a b : Number) : MathResult :=
  match a, b with
  | .int i, .int j =>
    if sameWidth i j then onIntegers op i j (onInts i j)
    else .ok (finite? (onDoubles a.toDouble b.toDouble))
  | _, _ => .ok (finite? (onDoubles a.toDouble b.toDouble))

/-- Arithmetic on numbers; the operands as written are for the message. -/
def arithmetic (op : MathOp) (left right : Expr) (a b : Number) : MathResult :=
  match op with
  | .add => ring .add (· + ·) Double.add a b
  | .sub => ring .sub (· - ·) Double.sub a b
  | .mul => ring .mul (· * ·) Double.mul a b
  | .div => .ok (quotient a.toDouble b.toDouble)
  | .mod =>
    match a, b with
    | .int i, .int j =>
      if sameWidth i j then
        if j = 0 then .error (.moduloByZero left right) else .ok (some (.int (Int.tmod i j)))
      else .ok (finite? (a.toDouble.rem b.toDouble))
    | _, _ => .ok (finite? (a.toDouble.rem b.toDouble))

def numberOr (e : Error) : Value → MathResult
  | .number n => .ok (some n)
  | _ => .error e

def ordered (op : LogicOp) (a b : Number) : Bool :=
  match a.toDouble.compare? b.toDouble, op with
  | some .lt, .lt | some .lt, .le | some .eq, .le | some .eq, .ge | some .gt, .gt
  | some .gt, .ge => true
  | _, _ => false

/-- Whether two values are equal, as `==` asks, or different, as `!=` does; there is no answer for a
number and something else. -/
def equality? (op : LogicOp) (a b : Value) : Option Bool :=
  match a, b with
  | .number x, .number y =>
    let same := x.toDouble.eqv y.toDouble
    some (if op = .eq then same else !same)
  | .number _, _ | _, .number _ => none
  | a, b => some (if op = .eq then a.same b else !a.same b)

def isElement (v : Value) : Value → Except Error Bool
  | .list items => .ok (items.any (·.same v))
  | .string s =>
    match v with
    | .string needle => .ok (Text.contains needle.toList s.toList)
    | v => .error (.notAString v "string")
  | .record fields =>
    match v with
    | .string key => .ok (Record.get? fields key).isSome
    | v => .error (.notAString v "object")
  | _ => .error .notAContainer

def hasDefault : List Call → Bool
  | filter :: _ => filter.name == "default"
  | [] => false

def argumentRecord (args : List (String × Value)) : Record :=
  args.foldl (fun r (name, v) => r.put name v) []

def failing {α : Type} (callee : Callee) (name : String) (r : Except Error α) : Except Error α :=
  match r with
  | .ok a => .ok a
  | .error e => .error (.callFailed callee name e.messages)

def failed {α : Type} (callee : Callee) (name : String) (r : Except String α) : Except Error α :=
  match r with
  | .ok a => .ok a
  | .error text => .error (.callFailed callee name [text])

def known {α : Type} (callee : Callee) (name : String) : Option α → Except Error α
  | some found => .ok found
  | none => .error (.unknown callee name)

def textOr (e : Error) : Value → Except Error String
  | .string t => .ok t
  | .number n => .ok n.text
  | _ => .error e

/-- The truth of an operator on two expressions, each given by its truth, its number and its value,
or the opposite if that is asked for. The second one is evaluated only where it counts. Where equality
has no answer the result is false, and so is the opposite. -/
def logical (negated : Bool) (op : LogicOp) (leftHolds rightHolds : Unit → Except Error Bool)
    (leftNumber rightNumber : Unit → MathResult) (leftValue rightValue : Unit → Except Error Value) :
    Except Error Bool :=
  match op with
  | .or => (leftHolds ()).bind fun b => (if b then .ok true else rightHolds ()).map (· != negated)
  | .and => (leftHolds ()).bind fun b => (if b then rightHolds () else .ok false).map (· != negated)
  | .lt | .le | .gt | .ge =>
    (leftNumber ()).bind fun a => (rightNumber ()).bind fun b =>
      match a, b with
      | some a, some b => .ok (ordered op a b != negated)
      | _, _ => .error .notComparable
  | .eq | .ne =>
    (leftValue ()).bind fun a => (rightValue ()).map fun b => (equality? op a b).any (· != negated)

def mathOf (op : MathOp) (left right : Expr) (leftNumber : MathResult)
    (rightNumber : Unit → MathResult) : MathResult :=
  leftNumber.bind fun a => (rightNumber ()).bind fun b =>
    match a, b with
    | some a, some b => arithmetic op left right a b
    | _, _ => .ok none

/-- Whether a value is in a container, or is not. -/
def membership (negated : Bool) (value : Except Error Value)
    (container : Unit → Except Error Value) : Except Error Bool :=
  value.bind fun v => (container ()).bind fun c => (isElement v c).map (· != negated)

def tested (s : Scope) (subject : String) (negated : Bool) (name : String)
    (args : Except Error (List Value)) : Except Error Bool :=
  (known .test name (Tester.find? name)).bind fun tester => args.bind fun values =>
    (failed .test name (tester (s.lookup subject).toOption values)).map (· != negated)

/-- The value of an expression from the value of its atom, the default that its first filter gives and
its filters. A missing variable is no error where a default is given or where it is negated; then it
is nothing at all, which is false. -/
def exprValue (s : Scope) (atom : Atom) (negated : Bool) (filters : List Call)
    (atomValue defaultValue : Unit → Except Error Value) (filtered : Value → Except Error Value) :
    Except Error Value :=
  let finish (v : Value) : Except Error Value :=
    (filtered v).map fun v => if negated then .bool !v.isTruthy else v
  match atom with
  | .path text =>
    match s.lookup text with
    | .ok .null => (if hasDefault filters then defaultValue () else .ok .null).bind finish
    | .ok v => finish v
    | .error e =>
      if hasDefault filters then (defaultValue ()).bind finish
      else if negated then .ok (.bool true)
      else .error e
  | _ => (atomValue ()).bind finish

/-- The number of an expression: of its atom, or of its value when it has filters. -/
def exprNumber (filters : List Call) (atomNumber : Unit → MathResult)
    (value : Unit → Except Error Value) : MathResult :=
  if filters.isEmpty then atomNumber () else (value ()).bind (numberOr .mathFiltered)

mutual

def Expr.eval (s : Scope) : Expr → Except Error Value
  | .mk atom negated filters =>
    exprValue s atom negated filters (fun _ => Atom.eval s negated atom) (fun _ => defaultOf s filters)
      fun v => applyFilters s v filters

def defaultOf (s : Scope) : List Call → Except Error Value
  | [] => .error .defaultWithoutValue
  | filter :: _ => defaultOfCall s filter

def defaultOfCall (s : Scope) : Call → Except Error Value
  | .mk _ args => defaultArgument s args

/-- The last argument of the name `value`. -/
def defaultArgument (s : Scope) : List (String × Expr) → Except Error Value
  | [] => .error .defaultWithoutValue
  | (name, e) :: rest =>
    if name = "value" && !isNamed "value" rest then e.eval s else defaultArgument s rest

/-- The value of an atom. An operator with a truth value gives the opposite if that is asked for. -/
def Atom.eval (s : Scope) (negated : Bool) : Atom → Except Error Value
  | .string t => .ok (.string t)
  | .int i => .ok (.number (.int i))
  | .double d => .ok (.number (.double d))
  | .bool b => .ok (.bool b)
  | .path text => s.lookup text
  | .math op left right =>
    match mathOf op left right (left.number s) (fun _ => right.number s) with
    | .ok (some n) => .ok (.number n)
    | .ok none => .ok (.string "NaN")
    | .error e => .error (.headline e.message)
  | .logic op left right =>
    (logical negated op (fun _ => left.holds s) (fun _ => right.holds s) (fun _ => left.number s)
      (fun _ => right.number s) (fun _ => left.eval s) (fun _ => right.eval s)).map Value.bool
  | .test subject opposite name args =>
    (tested s subject opposite name (evalTestArguments s name args)).map Value.bool
  | .call function => called s function
  | .list items => (evalAll s items).map Value.list
  | .concat parts => (concatenated s parts).map Value.string
  | .elem opposite left right =>
    (membership opposite (left.eval s) (fun _ => right.eval s)).map Value.bool

def evalAll (s : Scope) : List Expr → Except Error (List Value)
  | [] => .ok []
  | e :: es => (e.eval s).bind fun v => (evalAll s es).map (v :: ·)

/-- The values of named arguments; a failure is the callee's. Of a name the last argument counts, and
the others are not evaluated. -/
def evalArguments (s : Scope) (callee : Callee) (name : String) :
    List (String × Expr) → Except Error (List (String × Value))
  | [] => .ok []
  | (argument, e) :: rest =>
    if isNamed argument rest then evalArguments s callee name rest
    else
      (failing callee name (e.eval s)).bind fun v =>
        (evalArguments s callee name rest).map ((argument, v) :: ·)

/-- The values of the arguments of a test; a failure is the test's. -/
def evalTestArguments (s : Scope) (name : String) : List Expr → Except Error (List Value)
  | [] => .ok []
  | e :: es =>
    (failing .test name (e.eval s)).bind fun v => (evalTestArguments s name es).map (v :: ·)

def called (s : Scope) : Call → Except Error Value
  | .mk name args =>
    (known .function name (Function.find? name)).bind fun function =>
      (evalArguments s .function name args).bind fun values =>
        failed .function name (function (argumentRecord values))

/-- The value after filters. Those that mark or replace a value have done their work before. -/
def applyFilters (s : Scope) (v : Value) : List Call → Except Error Value
  | [] => .ok v
  | filter :: rest => (applyFilter s v filter).bind fun v => applyFilters s v rest

def applyFilter (s : Scope) (v : Value) : Call → Except Error Value
  | .mk name args =>
    if name = "safe" || name = "default" then .ok v
    else
      (known .filter name (Filter.find? name)).bind fun filter =>
        (evalArguments s .filter name args).bind fun values =>
          failed .filter name (filter v (argumentRecord values))

def concatenated (s : Scope) : List Atom → Except Error String
  | [] => .ok ""
  | part :: rest => (partText s part).bind fun text => (concatenated s rest).map (text ++ ·)

def partText (s : Scope) : Atom → Except Error String
  | .string t => .ok t
  | .int i => .ok (toString i)
  | .double d => .ok (NumberLayout.printed.text d)
  | .path text => (s.lookup text).bind (textOr (.concatVariable text))
  | .call function => (called s function).bind (textOr (.concatCall function.name))
  | _ => .ok ""

/-- The truth of an expression. A variable that cannot be evaluated is false. -/
def Expr.holds (s : Scope) : Expr → Except Error Bool
  | .mk atom negated filters =>
    let value : Except Error Value :=
      exprValue s atom negated filters (fun _ => Atom.eval s negated atom)
        (fun _ => defaultOf s filters)
        fun v => applyFilters s v filters
    match atom with
    | .path _ => .ok (value.toOption.any Value.isTruthy)
    | .concat _ => value.map Value.isTruthy
    | .logic op left right =>
      logical negated op (fun _ => left.holds s) (fun _ => right.holds s) (fun _ => left.number s)
        (fun _ => right.number s) (fun _ => left.eval s) (fun _ => right.eval s)
    | atom => (Atom.holds s atom).map (· != negated)

def Atom.holds (s : Scope) : Atom → Except Error Bool
  | .path text => .ok ((s.lookup text).toOption.any Value.isTruthy)
  | .logic op left right =>
    logical false op (fun _ => left.holds s) (fun _ => right.holds s) (fun _ => left.number s)
      (fun _ => right.number s) (fun _ => left.eval s) (fun _ => right.eval s)
  | .math op left right =>
    (mathOf op left right (left.number s) (fun _ => right.number s)).map fun n =>
      n.any fun n => !n.toDouble.isZero
  | .int i => .ok (i != 0)
  | .double d => .ok !d.isZero
  | .elem negated left right => membership negated (left.eval s) (fun _ => right.eval s)
  | .test subject negated name args =>
    tested s subject negated name (evalTestArguments s name args)
  | .bool b => .ok b
  | .string t => .ok !t.isEmpty
  | .call function =>
    (called s function).bind fun
      | .bool b => .ok b
      | _ => .error (.logicCall function.name)
  | .concat parts => (concatenated s parts).map fun t => !t.isEmpty
  | .list items => .ok !items.isEmpty

def Expr.number (s : Scope) : Expr → MathResult
  | .mk atom negated filters =>
    exprNumber filters (fun _ => Atom.number s atom) fun _ =>
      exprValue s atom negated filters (fun _ => Atom.eval s negated atom)
        (fun _ => defaultOf s filters)
        fun v => applyFilters s v filters

def Atom.number (s : Scope) : Atom → MathResult
  | .path text => (s.lookup text).bind (numberOr (.mathVariable text))
  | .int i => .ok (some (.int i))
  | .double d => .ok (some (.double d))
  | .math op left right => mathOf op left right (left.number s) (fun _ => right.number s)
  | .call function => (called s function).bind (numberOr (.mathCall function.name))
  | .string t => .error (.mathString t)
  | .bool b => .error (.mathBool b)
  | .concat parts => .error (.mathConcat parts)
  | .test _ _ name _ => .error (.mathTest name)
  | .logic .. | .list _ | .elem .. => .error .mathFiltered

end

end Galley.Template
