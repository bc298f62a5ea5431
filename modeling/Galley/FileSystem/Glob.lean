import Galley.FileSystem.Access

/-!
Patterns of paths. In the names of a pattern, `?` stands for one character, `*` for any text, and
brackets for one of the characters in them or, after `!`, for one that is not. The names are looked for
one after the other, from the root or from where relative paths begin.

A pattern ends in a name; `**`, which stands for directories of any depth, is not read.
-/

namespace Galley.Glob

/-- What stands for characters between brackets. -/
inductive Member where
  | single (c : Char)
  | range (first last : Char)
deriving DecidableEq, Repr

def Member.holds : Member → Char → Bool
  | .single member, c => member == c
  | .range first last, c => first ≤ c && c ≤ last

/-- A part of a name in a pattern. -/
inductive Token where
  | char (c : Char)
  | anyChar
  | anyText
  | within (members : List Member)
  | outside (members : List Member)
deriving DecidableEq, Repr

/-- The characters that mean something else in a pattern. -/
def isSpecial (c : Char) : Bool := c == '?' || c == '*' || c == '[' || c == ']'

/-- The pattern that only the text itself fits. -/
def escape (text : List Char) : List Char :=
  text.flatMap fun c => if isSpecial c then ['[', c, ']'] else [c]

def readMembers : List Char → List Member
  | first :: '-' :: last :: text => .range first last :: readMembers text
  | c :: text => .single c :: readMembers text
  | [] => []

/-- The characters meant before a closing bracket, and what comes after it. A bracket in front closes
nothing. -/
def readBrackets? : List Char → Option (List Member × List Char)
  | [] => none
  | c :: text =>
    match text.dropWhile (· ≠ ']') with
    | [] => none
    | _ :: rest => some (readMembers (c :: text.takeWhile (· ≠ ']')), rest)

/-- The token that begins with a character, and what comes after it. Brackets that are not closed are no
token. -/
def readToken? : Char → List Char → Option (Token × List Char)
  | '?', text => some (.anyChar, text)
  | '*', text => if text.head? = some '*' then none else some (.anyText, text)
  | '[', '!' :: text => (readBrackets? text).map fun (members, rest) => (.outside members, rest)
  | '[', text => (readBrackets? text).map fun (members, rest) => (.within members, rest)
  | c, text => some (.char c, text)

theorem length_of_readBrackets? {text rest : List Char} {members : List Member}
    (h : readBrackets? text = some (members, rest)) : rest.length ≤ text.length := by
  cases text with
  | nil => cases h
  | cons c text =>
    simp only [readBrackets?] at h
    split at h
    · cases h
    · next hdrop =>
      have hlength := (List.dropWhile_sublist (fun c => decide (c ≠ ']')) (l := text)).length_le
      obtain ⟨-, rfl⟩ := Prod.mk.inj (Option.some.inj h)
      rw [hdrop, List.length_cons] at hlength
      rw [List.length_cons]
      omega

theorem length_of_readToken? {c : Char} {text rest : List Char} {token : Token}
    (h : readToken? c text = some (token, rest)) : rest.length ≤ text.length := by
  unfold readToken? at h
  split at h
  · simp_all
  · split at h
    · cases h
    · simp_all
  · obtain ⟨⟨members, rest'⟩, hread, he⟩ := Option.map_eq_some_iff.1 h
    obtain ⟨-, rfl⟩ := Prod.mk.inj he
    exact Nat.le_trans (length_of_readBrackets? hread) (by simp)
  · obtain ⟨⟨members, rest'⟩, hread, he⟩ := Option.map_eq_some_iff.1 h
    obtain ⟨-, rfl⟩ := Prod.mk.inj he
    exact length_of_readBrackets? hread
  · simp_all

/-- The tokens of a name in a pattern. -/
def read? : List Char → Option (List Token)
  | [] => some []
  | c :: text =>
    match _h : readToken? c text with
    | none => none
    | some (token, rest) => (read? rest).map (token :: ·)
termination_by text => text.length
decreasing_by
  have := length_of_readToken? _h
  simp only [List.length_cons]
  omega

/-- Whether a token that is not any text admits a character. -/
def Token.admits : Token → Char → Bool
  | .char c, other => c == other
  | .anyChar, _ | .anyText, _ => true
  | .within members, c => members.any (·.holds c)
  | .outside members, c => !members.any (·.holds c)

/-- Whether a name fits tokens. -/
def fits : List Token → List Char → Bool
  | [], name => name.isEmpty
  | .anyText :: tokens, name => (List.range (name.length + 1)).any fun n => fits tokens (name.drop n)
  | _ :: _, [] => false
  | token :: tokens, c :: name => token.admits c && fits tokens name

/-- The only name that fits, when every token is a character. -/
def literal? : List Token → Option (List Char)
  | [] => some []
  | .char c :: tokens => (literal? tokens).map (c :: ·)
  | _ :: _ => none

/-- A name in a directory; in the directory `.`, the name alone. -/
def child (p : Path) (name : String) : Path := if p.text = "." then ⟨name⟩ else p.join name

/-- Whether a name is there, as the directory is for `.` and `..`. -/
def isThere (fs : FileSystem) (p : Path) (name : String) : Bool :=
  if name = "." ∨ name = ".." then fs.isDirectory p
  else (fs.find (child p name)).isOk || (fs.find (child p name) false).isOk

/-- The names in a directory that fit, in order. -/
def namesFitting (fs : FileSystem) (tokens : List Token) (p : Path) : List String :=
  match fs.find p with
  | .error _ => []
  | .ok place => (fs.names place).mergeSort.filter fun name => fits tokens name.toList

/-- The names `..` and `.` as far as they fit. They are not among the names in a directory, and only
tokens that begin with a dot are tried on them. -/
def dotsFitting (tokens : List Token) : List String :=
  if tokens.head? = some (.char '.') then ["..", "."].filter fun name => fits tokens name.toList else []

/-- The paths of what fits in a directory. -/
def pathsFitting (fs : FileSystem) (tokens : List Token) (p : Path) : List Path :=
  match literal? tokens with
  | some name => if isThere fs p (String.ofList name) then [child p (String.ofList name)] else []
  | none =>
    if fs.isDirectory p then
      (dotsFitting tokens).map p.join ++ (namesFitting fs tokens p).map (child p)
    else []

/-- The paths that the names of a pattern lead to from a directory. -/
def expand (fs : FileSystem) : List (List Token) → Path → List Path
  | [], p => [p]
  | tokens :: rest, p => (pathsFitting fs tokens p).flatMap (expand fs rest)

/-- The paths of what fits a pattern, when it is one. -/
def paths? (fs : FileSystem) (pattern : String) : Option (List Path) :=
  let isAbsolute := pattern.toList.head? == some '/'
  let text := if isAbsolute then pattern.toList.tail else pattern.toList
  ((Text.splitOnChar (· == '/') text).mapM read?).map fun names =>
    expand fs names ⟨if isAbsolute then "/" else "."⟩

end Galley.Glob
