import Galley.Proofs.Number.Token
import Galley.Text.Hex
import Galley.Typst.Literal

/-! # A reader of literals

Strings end at the first quote that is not escaped. Parentheses hold nothing, items with a comma
after the first, or fields; which of these is seen from whether a key and a colon come first. -/

namespace Galley.Typst.Literal

open Text (Stops)

/-- What a literal means. -/
inductive Datum where
  | bool (b : Bool)
  | number (token : String)
  | text (content : String)
  | list (items : List Datum)
  | dictionary (fields : List (String × Datum))
deriving Repr

/-! ## Strings -/

/-- The character with a number in hexadecimal digits. -/
def charOf? (digits : List Char) : Option Char := do
  let values ← digits.mapM Text.Hex.value?
  let n := values.foldl (fun n v => n * 16 + v) 0
  if n.isValidChar then some (Char.ofNat n) else none

/-- The character that an escape stands for, read behind its backslash. -/
def escaped? : List Char → Option (Char × List Char)
  | '\\' :: rest => some ('\\', rest)
  | '"' :: rest => some ('"', rest)
  | 'n' :: rest => some ('\n', rest)
  | 't' :: rest => some ('\t', rest)
  | 'r' :: rest => some ('\r', rest)
  | 'u' :: '\x7b' :: rest =>
    match rest.dropWhile (· ≠ '\x7d') with
    | '\x7d' :: after => (charOf? (rest.takeWhile (· ≠ '\x7d'))).map fun c => (c, after)
    | _ => none
  | _ => none

theorem length_lt_of_escaped? {text rest : List Char} {c : Char}
    (h : escaped? text = some (c, rest)) : rest.length < text.length := by
  unfold escaped? at h
  split at h
  case h_6 =>
    next tail =>
    split at h
    · next after hafter =>
      obtain ⟨c', -, he⟩ := Option.map_eq_some_iff.1 h
      obtain rfl : after = rest := (Prod.mk.inj he).2
      have hlen := (List.dropWhile_sublist (· ≠ '\x7d') (l := tail)).length_le
      rw [hafter] at hlen
      simp at hlen ⊢
      omega
    · cases h
  all_goals simp_all

/-- The content of a string, read behind its first quote up to its last, and the text after it. -/
def content? (text : List Char) : Option (List Char × List Char) :=
  match text with
  | [] => none
  | '"' :: rest => some ([], rest)
  | '\\' :: rest =>
    match _h : escaped? rest with
    | some (c, rest) => (content? rest).map fun found => (c :: found.1, found.2)
    | none => none
  | c :: rest => (content? rest).map fun found => (c :: found.1, found.2)
termination_by text.length
decreasing_by
  · have := length_lt_of_escaped? _h
    simp
    omega
  · simp

theorem content?_of_escaped? {text rest : List Char} {c : Char}
    (h : escaped? text = some (c, rest)) :
    content? ('\\' :: text) = (content? rest).map fun found => (c :: found.1, found.2) := by
  rw [content?]
  split
  · next c' rest' h' =>
    rw [h] at h'
    obtain ⟨rfl, rfl⟩ : c = c' ∧ rest = rest' := by simpa using h'
    rfl
  · next h' =>
    rw [h] at h'
    cases h'

/-- Each character is read as what it was before it was escaped. -/
theorem content?_escape (c : Char) (rest : List Char) :
    content? (escape c ++ rest) = (content? rest).map fun found => (c :: found.1, found.2) := by
  unfold escape
  split
  · next h =>
    subst h
    exact content?_of_escaped? rfl
  split
  · next h =>
    subst h
    exact content?_of_escaped? rfl
  split
  · next h =>
    subst h
    exact content?_of_escaped? rfl
  split
  · next h =>
    subst h
    exact content?_of_escaped? rfl
  split
  · next h =>
    subst h
    exact content?_of_escaped? rfl
  split
  · next h =>
    subst h
    exact content?_of_escaped? rfl
  split
  · next h =>
    subst h
    exact content?_of_escaped? rfl
  split
  · next h =>
    subst h
    exact content?_of_escaped? rfl
  next hbackslash hquote _ _ _ _ _ _ =>
  rw [List.singleton_append, content?]
  · exact hquote
  · exact hbackslash

/-- A string is read back whatever comes after it. -/
theorem content?_string (text : List Char) (after : List Char) :
    content? (text.flatMap escape ++ '"' :: after) = some (text, after) := by
  induction text with
  | nil => rw [List.flatMap_nil, List.nil_append, content?]
  | cons c text ih => rw [List.flatMap_cons, List.append_assoc, content?_escape, ih, Option.map_some]

theorem string_append (text : String) (after : List Char) :
    string text ++ after = '"' :: (text.toList.flatMap escape ++ '"' :: after) := by
  simp [string]

/-! ## Keys and scalars -/

/-- The key in front of a text, bare or a string, with the colon behind it. -/
def key? : List Char → Option (String × List Char)
  | '"' :: rest =>
    match content? rest with
    | some (name, ':' :: rest) => some (String.ofList name, rest)
    | _ => none
  | text =>
    let name := String.ofList (text.takeWhile isIdentifierRest)
    match text.dropWhile isIdentifierRest with
    | ':' :: rest => if isIdentifier name then some (name, rest) else none
    | _ => none

/-- The truth value or the number in front of a text. -/
def scalar? (text : List Char) : Option (Datum × List Char) :=
  let word := text.takeWhile isIdentifierRest
  let rest := text.dropWhile isIdentifierRest
  if word = ['t', 'r', 'u', 'e'] then some (.bool true, rest)
  else if word = ['f', 'a', 'l', 's', 'e'] then some (.bool false, rest)
  else (Number.readToken? text).map fun found => (.number (String.ofList found.1), found.2)

/-- A key is read back where a colon follows. -/
theorem key?_key (name : String) (after : List Char) :
    key? (key name ++ ':' :: after) = some (name, after) := by
  unfold key
  split
  · next h =>
    have hstops : Stops isIdentifierRest (':' :: after) := Text.stops_cons.2 (by decide)
    have hall : ∀ c ∈ name.toList, isIdentifierRest c = true := fun _ => isIdentifierRest_of_mem h
    have htake := Text.takeWhile_append_of_stops hall hstops
    have hdrop := Text.dropWhile_append_of_stops hall hstops
    obtain ⟨c, cs, hname, hc, -⟩ := isIdentifier_iff.1 h
    rw [key?]
    · simp only [htake, hdrop, String.ofList_toList, h, if_true]
    · intro rest he
      rw [hname] at he
      rw [(List.cons.inj he).1] at hc
      cases hc
  · rw [string_append, key?, content?_string]
    simp

/-! ## Values -/

/-- The text without the spaces in front. -/
def skip (text : List Char) : List Char := text.dropWhile (· == ' ')

mutual

/-- The value in front of a text, and the text after it. -/
def value? : (fuel : Nat) → List Char → Option (Datum × List Char)
  | 0, _ => none
  | _ + 1, '"' :: rest =>
    (content? rest).map fun found => (.text (String.ofList found.1), found.2)
  | _ + 1, '(' :: ')' :: rest => some (.list [], rest)
  | fuel + 1, '(' :: rest =>
    if (key? rest).isSome then
      (fields? fuel rest).map fun found => (.dictionary found.1, found.2)
    else
      match value? fuel rest with
      | some (first, ',' :: rest) =>
        (items? fuel (skip rest)).map fun found => (.list (first :: found.1), found.2)
      | _ => none
  | _ + 1, text => scalar? text

/-- The items in front of a text, up to the parenthesis behind them; a comma may stand before it. -/
def items? : (fuel : Nat) → List Char → Option (List Datum × List Char)
  | 0, _ => none
  | _ + 1, ')' :: rest => some ([], rest)
  | fuel + 1, text =>
    match value? fuel text with
    | some (x, ')' :: rest) => some ([x], rest)
    | some (x, ',' :: rest) =>
      (items? fuel (skip rest)).map fun found => (x :: found.1, found.2)
    | _ => none

/-- The fields in front of a text, up to the parenthesis behind them. -/
def fields? : (fuel : Nat) → List Char → Option (List (String × Datum) × List Char)
  | 0, _ => none
  | _ + 1, ')' :: rest => some ([], rest)
  | fuel + 1, text =>
    match key? text with
    | none => none
    | some (name, rest) =>
      match value? fuel (skip rest) with
      | some (x, ')' :: rest) => some ([(name, x)], rest)
      | some (x, ',' :: rest) =>
        (fields? fuel (skip rest)).map fun found => ((name, x) :: found.1, found.2)
      | _ => none

end

/-- The literal in front of a text, and the text after it. No literal has more levels than
characters. -/
def read? (text : List Char) : Option (Datum × List Char) := value? (text.length + 1) text

end Galley.Typst.Literal
