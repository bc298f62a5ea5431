import Galley.Host.Shell.Token

/-!
Reading of scripts: the steps that tokens stand for.
-/

namespace Galley.Host.Shell

def Token.plain? : Token → Option String
  | .word pieces => pieces.plain?.map String.ofList
  | _ => none

namespace Reader

def closers : List String := ["\x7d", "then", "elif", "else", "fi", "do", "done"]

/-- Whether no command begins here. -/
def atEnd : List Token → Bool
  | [] => true
  | .operator text :: _ => text = ")"
  | token :: _ => token.plain?.any (closers.contains ·)

def after? (word : String) : List Token → Option (List Token)
  | token :: rest => if token.plain? = some word then some rest else none
  | [] => none

/-- The text without the semicolons in front of it. -/
def skipEnds (tokens : List Token) : List Token := tokens.dropWhile (· == .operator ";")

def redirections : List Token → List Redirection × List Token
  | .redirection r :: rest =>
    let (more, rest) := redirections rest
    (r :: more, rest)
  | rest => ([], rest)

def simple : List Token → List Word × List Redirection × List Token
  | .word w :: rest =>
    let (words, targets, rest) := simple rest
    (w :: words, targets, rest)
  | .redirection r :: rest =>
    let (words, targets, rest) := simple rest
    (words, r :: targets, rest)
  | rest => ([], [], rest)

def redirect (clause : Clause) (targets : List Redirection) : Clause :=
  if targets.isEmpty then clause else .redirected clause targets

def wordsBefore : List Token → List Word × List Token
  | .word w :: rest =>
    let (words, rest) := wordsBefore rest
    (w :: words, rest)
  | rest => ([], rest)

mutual

/-- The steps in front, of which the first is run at a joint, and what follows them. -/
def steps? : Nat → Joint → List Token → Option (List Step × List Token)
  | 0, _, _ => none
  | fuel + 1, joint, tokens =>
    let tokens := skipEnds tokens
    if atEnd tokens then if joint = .always then some ([], tokens) else none
    else do
      let (negated, tokens) :=
        match after? "!" tokens with
        | some rest => (true, rest)
        | none => (false, tokens)
      let (pipeline, rest) ← pipeline? fuel tokens
      let next : Option (Joint × List Token) :=
        match rest with
        | .operator ";" :: rest => some (.always, rest)
        | .operator "&&" :: rest => some (.onSuccess, rest)
        | .operator "||" :: rest => some (.onFailure, rest)
        | _ => none
      match next with
      | some (following, rest) =>
        let (steps, rest) ← steps? fuel following rest
        return (.mk joint negated pipeline :: steps, rest)
      | none => if atEnd rest then some ([.mk joint negated pipeline], rest) else none

def pipeline? : Nat → List Token → Option (List Clause × List Token)
  | 0, _ => none
  | fuel + 1, tokens => do
    let (clause, rest) ← clause? fuel tokens
    match rest with
    | .operator "|" :: rest =>
      let (clauses, rest) ← pipeline? fuel (skipEnds rest)
      return (clause :: clauses, rest)
    | _ => return ([clause], rest)

def clause? : Nat → List Token → Option (Clause × List Token)
  | 0, _ => none
  | fuel + 1, tokens =>
    match tokens with
    | .operator "(" :: rest => do
      let (body, rest) ← steps? fuel .always rest
      match rest with
      | .operator ")" :: rest => return compound (.group true body) rest
      | _ => none
    | first :: rest =>
      match first.plain? with
      | some "\x7b" => do
        let (body, rest) ← steps? fuel .always rest
        return compound (.group false body) (← after? "\x7d" rest)
      | some "if" => do
        let (clause, rest) ← branch? fuel rest
        return compound clause rest
      | some "while" => do
        let (clause, rest) ← loop? fuel false rest
        return compound clause rest
      | some "until" => do
        let (clause, rest) ← loop? fuel true rest
        return compound clause rest
      | some "for" => do
        let (clause, rest) ← each? fuel rest
        return compound clause rest
      | _ =>
        let (words, targets, rest) := simple tokens
        if words.isEmpty && targets.isEmpty then none
        else some (redirect (.simple words) targets, rest)
    | [] => none
where
  /-- A bracketed command with the redirections after it. -/
  compound (clause : Clause) (rest : List Token) : Clause × List Token :=
    let (targets, rest) := redirections rest
    (redirect clause targets, rest)

def branch? : Nat → List Token → Option (Clause × List Token)
  | 0, _ => none
  | fuel + 1, tokens => do
    let (condition, rest) ← steps? fuel .always tokens
    let (body, rest) ← steps? fuel .always (← after? "then" rest)
    match after? "elif" rest, after? "else" rest with
    | some rest, _ =>
      let (otherwise, rest) ← branch? fuel rest
      return (.branch condition body [.mk .always false [otherwise]], rest)
    | none, some rest =>
      let (otherwise, rest) ← steps? fuel .always rest
      return (.branch condition body otherwise, ← after? "fi" rest)
    | none, none => return (.branch condition body [], ← after? "fi" rest)

def loop? : Nat → Bool → List Token → Option (Clause × List Token)
  | 0, _, _ => none
  | fuel + 1, negated, tokens => do
    let (condition, rest) ← steps? fuel .always tokens
    let (body, rest) ← steps? fuel .always (← after? "do" rest)
    return (.loop negated condition body, ← after? "done" rest)

def each? : Nat → List Token → Option (Clause × List Token)
  | 0, _ => none
  | fuel + 1, tokens => do
    let name :: rest := tokens | none
    let name ← name.plain?
    let (items, rest) :=
      match after? "in" rest with
      | some rest =>
        let (words, rest) := wordsBefore rest
        (some words, rest)
      | none => (none, rest)
    let (body, rest) ← steps? fuel .always (← after? "do" (skipEnds rest))
    return (.each name items body, ← after? "done" rest)

end

end Reader

def parse? (text : List Char) : Option (List Step) := do
  let tokens ← Token.tokens? (text.length + 1) text
  match ← Reader.steps? (6 * tokens.length + 6) .always tokens with
  | (steps, []) => some steps
  | _ => none

end Galley.Host.Shell
