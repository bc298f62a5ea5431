import Galley.Environment
import Galley.Path.Basic
import Galley.Text.Alphanumeric

/-!
Expansion of the texts that name directories: references to the environment, then a tilde in front.
`$NAME` and `${NAME}` stand for a text of the environment, `${NAME:-text}` gives one for a name that
is not there, and `$$` is a dollar sign. One unknown name without such a text leaves the whole as it
is. A text that was put in is not looked at again.
-/

namespace Galley.Settings

def isNameChar (c : Char) : Bool := Text.isAlphanumeric c || c == '_'

/-- A part of a text that may refer to the environment. -/
inductive Fragment where
  | plain (text : List Char)
  | reference (name : List Char) (fallback : Option (List Char))
deriving DecidableEq, Repr

/-- The reference between braces. A fallback follows `:-`, unless no name stands in front of it. -/
def Fragment.ofBraced (body : List Char) : Fragment :=
  match Text.splitAtFirst? [':', '-'] body with
  | some (name, fallback) =>
    if name.isEmpty then .reference body none else .reference name (some fallback)
  | none => .reference body none

def Fragment.next (c : Char) (text : List Char) : Fragment × List Char :=
  if c ≠ '$' then (.plain [c], text)
  else
    match text with
    | '\x7b' :: body =>
      match Text.splitAtFirst? ['\x7d'] body with
      | some (inner, rest) => (ofBraced inner, rest)
      | none => (.plain [c, '\x7b'], body)
    | '$' :: rest => (.plain [c], rest)
    | text =>
      if (text.takeWhile isNameChar).isEmpty then (.plain [c], text)
      else (.reference (text.takeWhile isNameChar) none, text.dropWhile isNameChar)

/-- A fragment takes nothing but what stands in front. -/
theorem Fragment.length_next_le (c : Char) (text : List Char) :
    (next c text).2.length ≤ text.length := by
  unfold next
  split
  · exact Nat.le_refl _
  · split
    · next body =>
      split
      · next inner rest h =>
        have := congrArg List.length (Text.eq_of_splitAtFirst? h)
        simp only [List.length_append, List.length_cons] at this ⊢
        omega
      · simp
    · simp
    · split
      · exact Nat.le_refl _
      · exact (List.dropWhile_sublist _).length_le

def fragments : List Char → List Fragment
  | [] => []
  | c :: text => (Fragment.next c text).1 :: fragments (Fragment.next c text).2
termination_by text => text.length
decreasing_by
  have := Fragment.length_next_le c text
  simp only [List.length_cons]
  omega

/-- What a fragment stands for, unless it names nothing. -/
def Fragment.text? (env : Environment) : Fragment → Option (List Char)
  | .plain text => some text
  | .reference name fallback =>
    match env.get? (String.ofList name) with
    | some text => some text.toList
    | none => fallback

/-- The text with its references replaced, unless one names nothing. -/
def substitute? (env : Environment) (text : List Char) : Option (List Char) :=
  ((fragments text).mapM (Fragment.text? env)).map List.flatten

/-- A tilde in front stands for the home directory when nothing or a slash follows it. -/
def atHome (env : Environment) (text : List Char) : List Char :=
  match text with
  | ['~'] => env.home.toList
  | '~' :: '/' :: rest => env.home.toList ++ '/' :: rest
  | text => text

/-- The path that a text of the settings names. A tilde that a reference put in front is no tilde. -/
def expand (env : Environment) (text : String) : Path :=
  match substitute? env text.toList with
  | none => ⟨text⟩
  | some expanded =>
    ⟨String.ofList (if text.toList.head? = some '~' then atHome env expanded else expanded)⟩

end Galley.Settings
