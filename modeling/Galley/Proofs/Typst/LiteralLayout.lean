import Galley.Proofs.Number.Token
import Galley.Proofs.Typst.Escape

/-! # How literals are laid out

The literal of a value is code in which string literals stand. The code holds no quote, and no number
sign but before the `l` of a declaration; so what a scanner could take for a directive is in the
strings, whose contents are listed here in the order in which they are written. -/

namespace Galley.Typst.Literal

/-! ## Code and strings -/

/-- Code that neither begins a string nor a directive. -/
structure Quiet (code : List Char) : Prop where
  noQuote : '"' ∉ code
  sign : ∀ front rest, code = front ++ '#' :: rest → rest.head? = some 'l'

/-- Text with strings in it that hold these contents, up to a tail. A string is never followed by
another one at once. -/
inductive Laid (tail : List Char) : List (List Char) → List Char → Prop where
  | code {code : List Char} : Quiet code → Laid tail [] (code ++ tail)
  | string {code content text : List Char} {contents : List (List Char)} : Quiet code →
      text.head? ≠ some '"' → Laid tail contents text →
      Laid tail (content :: contents) (code ++ '"' :: (escaped content ++ '"' :: text))

/-- A part that lays these contents before those of any text behind it. -/
def Lays (contents : List (List Char)) (part : List Char) : Prop :=
  ∀ (tail text : List Char) (more : List (List Char)), Laid tail more text →
    text.head? ≠ some '"' → Laid tail (contents ++ more) (part ++ text)

theorem quiet_of_not_mem {code : List Char} (hq : '"' ∉ code) (hs : '#' ∉ code) : Quiet code := by
  refine ⟨hq, fun front rest h => ?_⟩
  rw [h] at hs
  exact absurd (by simp) hs

theorem Quiet.append {a b : List Char} (ha : Quiet a) (hb : Quiet b) : Quiet (a ++ b) := by
  refine ⟨by simp [ha.noQuote, hb.noQuote], fun front rest h => ?_⟩
  rcases List.append_eq_append_iff.1 h with ⟨mid, -, hm⟩ | ⟨mid, hm, hr⟩
  · exact hb.sign mid rest hm
  · cases mid with
    | nil => exact hb.sign [] rest (by simpa using hr.symm)
    | cons c mid =>
      obtain ⟨rfl, rfl⟩ := List.cons.inj hr
      have := ha.sign front mid hm
      cases mid with
      | nil => cases this
      | cons c mid => exact this

theorem Laid.after_code {tail code text : List Char} {contents : List (List Char)}
    (hc : Quiet code) (h : Laid tail contents text) : Laid tail contents (code ++ text) := by
  cases h with
  | code hq =>
    rw [← List.append_assoc]
    exact .code (hc.append hq)
  | string hq hh h =>
    rw [← List.append_assoc]
    exact .string (hc.append hq) hh h

theorem lays_code {code : List Char} (h : Quiet code) : Lays [] code :=
  fun _ _ _ ht _ => ht.after_code h

theorem lays_nil : Lays [] [] := fun _ _ _ ht _ => ht

theorem lays_string (content : String) : Lays [content.toList] (string content) := by
  intro tail text more ht hh
  have hs : string content ++ text = [] ++ '"' :: (escaped content.toList ++ '"' :: text) := by
    simp [string, escaped]
  rw [hs]
  exact .string (quiet_of_not_mem (by simp) (by simp)) hh ht

theorem Lays.after_code {code part : List Char} {contents : List (List Char)} (hc : Quiet code)
    (h : Lays contents part) : Lays contents (code ++ part) := by
  intro tail text more ht hh
  rw [List.append_assoc]
  exact (h tail text more ht hh).after_code hc

theorem Lays.append {a b : List Char} {as bs : List (List Char)} (ha : Lays as a)
    (hb : Lays bs b) (hh : b.head? ≠ some '"') : Lays (as ++ bs) (a ++ b) := by
  intro tail text more ht hhead
  rw [List.append_assoc, List.append_assoc]
  refine ha tail _ _ (hb tail text more ht hhead) ?_
  cases b with
  | nil => exact hhead
  | cons c b => exact hh

/-- A part with code behind. -/
theorem Lays.append_code {part code : List Char} {contents : List (List Char)}
    (h : Lays contents part) (hc : Quiet code) : Lays contents (part ++ code) := by
  have := h.append (lays_code hc) fun he => hc.noQuote (List.mem_of_mem_head? he)
  rwa [List.append_nil] at this

/-! ## Values -/

/-- The strings of a key. -/
def keyStrings (name : String) : List (List Char) :=
  if isIdentifier name then [] else [name.toList]

mutual

/-- The contents of the string literals in the literal of a value. -/
def strings (depth limit : Nat) : Value → List (List Char)
  | .null => [[]]
  | .bool _ => if limit < depth then [[]] else []
  | .number _ => if limit < depth then [[]] else []
  | .string s => if limit < depth then [[]] else [s.toList]
  | .list xs => if limit < depth then [[]] else itemStrings (depth + 1) limit xs
  | .record fs => if limit < depth then [[]] else fieldStrings (depth + 1) limit fs

def itemStrings (depth limit : Nat) : List Value → List (List Char)
  | [] => []
  | x :: xs => strings depth limit x ++ itemStrings depth limit xs

def fieldStrings (depth limit : Nat) : List (String × Value) → List (List Char)
  | [] => []
  | (name, x) :: fs => keyStrings name ++ (strings depth limit x ++ fieldStrings depth limit fs)

end

theorem quiet_identifier {name : String} (h : isIdentifier name = true) : Quiet name.toList := by
  apply quiet_of_not_mem
  · exact fun hm => absurd (isIdentifierRest_of_mem h hm) (by decide)
  · exact fun hm => absurd (isIdentifierRest_of_mem h hm) (by decide)

theorem lays_key (name : String) : Lays (keyStrings name) (key name) := by
  unfold keyStrings key
  split
  · next h => exact lays_code (quiet_identifier h)
  · exact lays_string name

theorem lays_empty : Lays [[]] ['"', '"'] := lays_string ""

mutual

theorem lays_value (v : Value) (depth limit : Nat) :
    Lays (strings depth limit v) (value depth limit v) := by
  by_cases h : limit < depth
  · cases v <;>
      · simp only [value, strings, h, if_true]
        exact lays_empty
  cases v with
  | null => exact lays_empty
  | bool b =>
    rw [value, strings, if_neg h, if_neg h]
    cases b <;> exact lays_code (quiet_of_not_mem (by decide) (by decide))
  | number n =>
    rw [value, strings, if_neg h, if_neg h]
    exact lays_code (quiet_of_not_mem (fun hm => (Number.mem_text hm).1 rfl)
      fun hm => (Number.mem_text hm).2 rfl)
  | string s =>
    rw [value, strings, if_neg h, if_neg h]
    exact lays_string s
  | list xs =>
    have hitems := lays_items xs (depth + 1) limit
    rw [value, strings, if_neg h, if_neg h]
    have hopen : Quiet ['('] := quiet_of_not_mem (by decide) (by decide)
    split
    · next part hpart =>
      rw [hpart] at hitems
      exact (hitems.after_code hopen).append_code (quiet_of_not_mem (by decide) (by decide))
    · exact (hitems.after_code hopen).append_code (quiet_of_not_mem (by decide) (by decide))
  | record fs =>
    have hfields := lays_fields fs (depth + 1) limit
    rw [value, strings, if_neg h, if_neg h]
    have hopen : Quiet ['('] := quiet_of_not_mem (by decide) (by decide)
    exact (hfields.after_code hopen).append_code (quiet_of_not_mem (by decide) (by decide))

theorem lays_items (xs : List Value) (depth limit : Nat) :
    Lays (itemStrings depth limit xs) (commaSeparated (items depth limit xs)) := by
  match xs with
  | [] => exact lays_nil
  | [x] =>
    have hx := lays_value x depth limit
    simpa [itemStrings, items, commaSeparated] using hx
  | x :: y :: rest =>
    have hx := lays_value x depth limit
    have hrest := lays_items (y :: rest) depth limit
    have hcomma : Quiet [',', ' '] := quiet_of_not_mem (by decide) (by decide)
    exact hx.append (hrest.after_code hcomma) (by simp)

theorem lays_fields (fs : List (String × Value)) (depth limit : Nat) :
    Lays (fieldStrings depth limit fs) (commaSeparated (fields depth limit fs)) := by
  have hcolon : Quiet [':', ' '] := quiet_of_not_mem (by decide) (by decide)
  match fs with
  | [] => exact lays_nil
  | [(name, x)] =>
    have hx := (lays_value x depth limit).after_code hcolon
    have hfield := (lays_key name).append hx (by simp)
    simpa [fieldStrings, fields, commaSeparated] using hfield
  | (name, x) :: f :: rest =>
    have hx := (lays_value x depth limit).after_code hcolon
    have hfield := (lays_key name).append hx (by simp)
    have hrest := lays_fields (f :: rest) depth limit
    have hcomma : Quiet [',', ' '] := quiet_of_not_mem (by decide) (by decide)
    have := hfield.append (hrest.after_code hcomma) (by simp)
    simpa [fieldStrings, fields, commaSeparated] using this

end

end Galley.Typst.Literal
