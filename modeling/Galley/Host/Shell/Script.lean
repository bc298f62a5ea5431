import Galley.Text.Search

/-!
Scripts of a small shell: commands with words, assignments and redirections, brackets, branches and
loops, joined by `|`, `&&`, `||`, semicolons and line ends.
-/

namespace Galley.Host.Shell

/-- A piece of a word. -/
inductive Piece where
  /-- A character as it stands. -/
  | plain (c : Char)
  /-- A text that quotes or a backslash protect. -/
  | literal (text : List Char)
  /-- A variable, and what stands for one that is not set. -/
  | variable (name : String) (fallback : Option (List Char)) (quoted : Bool)
  /-- What a script writes, but for the line ends after it. -/
  | output (script : List Char) (quoted : Bool)
  /-- The value of a sum. -/
  | arithmetic (text : List Char)
deriving DecidableEq, Repr

abbrev Word := List Piece

/-- Where a stream of a command goes to, or comes from. -/
inductive Redirection where
  /-- To where another stream goes. -/
  | duplicate (stream target : Nat)
  /-- To a file, at its end or in the place of what it holds. -/
  | file (stream : Nat) (path : Word) (append : Bool)
  /-- From a file. -/
  | input (path : Word)
deriving DecidableEq, Repr

/-- When a step is run. -/
inductive Joint where
  | always
  | onSuccess
  | onFailure
deriving DecidableEq, Repr

mutual

/-- A command of a script. -/
inductive Clause where
  /-- The name of a command with its arguments, perhaps after assignments. -/
  | simple (words : List Word)
  /-- Steps in brackets. Those that are apart change no variable outside. -/
  | group (apart : Bool) (body : List Step)
  | branch (condition body otherwise : List Step)
  /-- The body for each item, or for each argument of the script. -/
  | each (name : String) (items : Option (List Word)) (body : List Step)
  /-- The body as long as the condition succeeds or, if negated, fails. -/
  | loop (negated : Bool) (condition body : List Step)
  | redirected (clause : Clause) (targets : List Redirection)

/-- Commands of which each reads what the one before it writes, and when they are run. -/
inductive Step where
  | mk (joint : Joint) (negated : Bool) (pipeline : List Clause)

end

def isNameChar (c : Char) : Bool := c.isAlphanum || c == '_'

def isName : List Char → Bool
  | [] => false
  | c :: rest => isNameChar c && !c.isDigit && rest.all isNameChar

/-- The characters of a word that has nothing but plain ones. -/
def Word.plain? (word : Word) : Option (List Char) :=
  word.mapM fun
    | .plain c => some c
    | _ => none

end Galley.Host.Shell
