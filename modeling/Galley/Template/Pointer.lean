import Galley.Text.Search
import Galley.Value.Basic

/-!
Dotted paths into values. A path is read part by part. Between quotes neither dots nor brackets count,
and a quote ends the part before it. A part is measured in characters but cut off in octets, so that
of a part beyond ASCII the last octets are left behind.
-/

namespace Galley.Template.Pointer

/-- What is left of a path, and what holds at its start: whether each kind of quote is open, and
whether a backslash stands before it. -/
structure Cursor where
  rest : List Char
  single : Bool
  double : Bool
  escaped : Bool
deriving DecidableEq, Repr

def takeOctets (n : Nat) : List Char → List Char
  | [] => []
  | c :: text => if c.utf8Size ≤ n then c :: takeOctets (n - c.utf8Size) text else []

/-- A text without its first octets. -/
def dropOctets (n : Nat) : List Char → List Char
  | [] => []
  | c :: text => if n = 0 then c :: text else dropOctets (n - c.utf8Size) text

/-- A part and what is left after it, when the part ends at the character of a number; the sign there
is left out. -/
def Cursor.cut (s : Cursor) (skipped count : Nat) : List Char × Cursor :=
  (takeOctets (count - skipped) (dropOctets skipped s.rest),
    { s with rest := dropOctets (count + 1) s.rest })

/-- The next part. Of the rest of the path `count` characters have been looked at and `skipped` do not
belong to the part; `text` is still to be looked at. -/
def nextPart (s : Cursor) (skipped count : Nat) (text : List Char) : Option (List Char × Cursor) :=
  match text with
  | [] =>
    let part := dropOctets skipped s.rest
    if part.isEmpty then none else some (part, { s with rest := [] })
  | c :: text =>
    let bare := !s.single && !s.double && !s.escaped
    let after : Cursor := { s with escaped := false }
    if c = '\\' then nextPart { s with escaped := true } skipped (count + 1) text
    else if c = '[' && bare then
      if count = skipped then nextPart (after.cut skipped count).2 skipped (count + 1) text
      else some (after.cut skipped count)
    else if c = ']' && bare then nextPart after (skipped + 1) (count + 1) text
    else
      let isQuote := (c = '"' || c = '\'') && !s.escaped
      let after : Cursor :=
        if !isQuote then after
        else if c = '"' then { after with double := !s.double }
        else { after with single := !s.single }
      if isQuote || (c = '.' && bare) then
        if count = skipped then nextPart after (skipped + 1) (count + 1) text
        else some (after.cut skipped count)
      else nextPart after skipped (count + 1) text

/-- The parts of what is left of a path; there are no more of them than characters. -/
def partsFrom : Nat → Cursor → List (List Char)
  | 0, _ => []
  | fuel + 1, s =>
    match nextPart s 0 0 s.rest with
    | some (part, s) => part :: partsFrom fuel s
    | none => []

def parts (path : List Char) : List (List Char) :=
  partsFrom path.length ⟨path, false, false, false⟩

/-- The place in a list that a part names: digits without a needless zero in front. -/
def indexOf? (part : List Char) : Option Nat :=
  if part.isEmpty || !part.all Char.isDigit || (part.head? == some '0' && part.length != 1) then none
  else some (part.foldl (fun n c => n * 10 + (c.toNat - 0x30)) 0)

/-- The name that a part stands for: `~1` is a slash and `~0` a tilde. -/
def unescape : List Char → List Char
  | '~' :: '1' :: rest => '/' :: unescape rest
  | '~' :: '0' :: rest => '~' :: unescape rest
  | c :: rest => c :: unescape rest
  | [] => []

def follow : Value → List (List Char) → Option Value
  | v, [] => some v
  | v, part :: rest =>
    let part := unescape part
    match v with
    | .record fields => (Record.get? fields (String.ofList part)).bind (follow · rest)
    | .list items => ((indexOf? part).bind (items[·]?)).bind (follow · rest)
    | _ => none

/-- The value to which a path leads from a value; the empty path stays there. -/
def valueAt? (v : Value) (path : List Char) : Option Value := follow v (parts path)

end Galley.Template.Pointer
