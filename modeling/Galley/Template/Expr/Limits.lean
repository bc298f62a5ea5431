import Galley.Template.Node.Basic

/-!
The first integer of a template that does not fit 64 bits with a sign. Such a template is refused
although it fits the grammar.
-/

namespace Galley.Template

mutual

/-- The first such integer of an expression: of its atom, then of its filters. -/
def Expr.tooLarge? : Expr → Option Int
  | .mk atom _ filters => atom.tooLarge? <|> tooLargeInCalls? filters

def Atom.tooLarge? : Atom → Option Int
  | .int i => if Number.fitsSigned i then none else some i
  | .math _ left right | .logic _ left right | .elem _ left right =>
    left.tooLarge? <|> right.tooLarge?
  | .test _ _ _ args => tooLargeInAll? args
  | .call function => function.tooLarge?
  | .list items => tooLargeInAll? items
  | .concat parts => tooLargeInParts? parts
  | _ => none

def Call.tooLarge? : Call → Option Int
  | .mk _ args => tooLargeInArguments? args

def tooLargeInAll? : List Expr → Option Int
  | [] => none
  | e :: es => e.tooLarge? <|> tooLargeInAll? es

def tooLargeInParts? : List Atom → Option Int
  | [] => none
  | a :: as => a.tooLarge? <|> tooLargeInParts? as

def tooLargeInCalls? : List Call → Option Int
  | [] => none
  | c :: cs => c.tooLarge? <|> tooLargeInCalls? cs

def tooLargeInArguments? : List (String × Expr) → Option Int
  | [] => none
  | (_, e) :: rest => e.tooLarge? <|> tooLargeInArguments? rest

end

mutual

def Node.tooLarge? : Node → Option Int
  | .print _ value | .assign _ _ _ value => value.tooLarge?
  | .loop _ _ _ container body otherwise _ =>
    container.tooLarge? <|> tooLargeInNodes? body <|> tooLargeInBodies? otherwise
  | .filtered _ filter body _ => filter.tooLarge? <|> tooLargeInNodes? body
  | .choice branches otherwise _ =>
    tooLargeInBranches? branches <|>
      match otherwise with
      | some (_, body) => tooLargeInNodes? body
      | none => none
  | _ => none

def tooLargeInNodes? : List Node → Option Int
  | [] => none
  | n :: ns => n.tooLarge? <|> tooLargeInNodes? ns

def tooLargeInBodies? : List (List Node) → Option Int
  | [] => none
  | body :: rest => tooLargeInNodes? body <|> tooLargeInBodies? rest

def tooLargeInBranches? : List Branch → Option Int
  | [] => none
  | .mk _ condition body :: rest =>
    condition.tooLarge? <|> tooLargeInNodes? body <|> tooLargeInBranches? rest

end

end Galley.Template
