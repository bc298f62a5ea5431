import Galley.Proofs.Typst.LiteralRoundTrip

/-! # The texts of fields

In the literal of a record, the text of a field is what the reader takes for its value. It is the literal of
that value one level down. -/

namespace Galley.Typst.Literal

/-- What a reader took from the front of a text, when it left the rest. -/
def taken (text rest : List Char) : List Char := text.take (text.length - rest.length)

theorem taken_append (part rest : List Char) : taken (part ++ rest) rest = part := by
  rw [taken, List.length_append, Nat.add_sub_cancel, List.take_left]

/-- The keys in front of a text, each with the text of its value, up to the parenthesis at the end. -/
def spans? : (fuel : Nat) → List Char → Option (List (String × List Char))
  | 0, _ => none
  | fuel + 1, text =>
    match key? text with
    | none => none
    | some (name, rest) =>
      match value? fuel (skip rest) with
      | some (_, [')']) => some [(name, taken (skip rest) [')'])]
      | some (_, ',' :: more) =>
        (spans? fuel (skip more)).map ((name, taken (skip rest) (',' :: more)) :: ·)
      | _ => none

/-- The keys of a dictionary and the texts of its values, as they stand in its literal. -/
def fieldTexts? (literal : List Char) : Option (List (String × List Char)) :=
  match literal with
  | ['(', ')'] => some []
  | '(' :: rest => spans? literal.length rest
  | _ => none

/-- The fields with the literals of their values, when these stand `depth` levels down. -/
def fieldTexts (depth limit : Nat) (fs : List (String × Value)) : List (String × List Char) :=
  fs.map fun field => (field.1, value depth limit field.2)

theorem spans?_last {text rest part : List Char} {fuel : Nat} {name : String} {x : Datum}
    (hkey : key? text = some (name, rest)) (hrest : skip rest = part ++ [')'])
    (hx : value? fuel (part ++ [')']) = some (x, [')'])) :
    spans? (fuel + 1) text = some [(name, part)] := by
  rw [spans?, hkey]
  simp only [hrest, hx, taken_append]

theorem spans?_more {text rest part more : List Char} {fuel : Nat} {name : String} {x : Datum}
    {texts : List (String × List Char)} (hkey : key? text = some (name, rest))
    (hrest : skip rest = part ++ ',' :: more)
    (hx : value? fuel (part ++ ',' :: more) = some (x, ',' :: more))
    (hmore : spans? fuel (skip more) = some texts) :
    spans? (fuel + 1) text = some ((name, part) :: texts) := by
  rw [spans?, hkey]
  simp only [hrest, hx, hmore, taken_append, Option.map_some]

theorem spans?_fields (fs : List (String × Value)) (depth limit fuel : Nat)
    (hv : Value.fieldsAreFinite fs = true) (hne : fs ≠ [])
    (hfuel : (commaSeparated (fields depth limit fs)).length + 1 < fuel) :
    spans? fuel (commaSeparated (fields depth limit fs) ++ [')']) = some (fieldTexts depth limit fs) := by
  induction fs generalizing fuel with
  | nil => exact absurd rfl hne
  | cons field fs ih =>
    obtain ⟨name, x⟩ := field
    obtain ⟨fuel, rfl⟩ : ∃ n, fuel = n + 1 := ⟨fuel - 1, by omega⟩
    obtain ⟨hx, hrest⟩ := Bool.and_eq_true_iff.1 hv
    cases fs with
    | nil =>
      simp only [fields, commaSeparated, List.length_append, List.length_cons] at hfuel
      simp only [fields, commaSeparated, List.cons_append, List.append_assoc]
      exact spans?_last (key?_key name _) (opens_value x depth limit hx _).skip
        (value?_value x depth limit fuel [')'] hx (follows_close _) (by omega))
    | cons f rest =>
      rw [commaSeparated_fields] at hfuel ⊢
      simp only [List.length_append, List.length_cons] at hfuel
      simp only [List.cons_append, List.append_assoc]
      have hfields := ih fuel hrest (by simp) (by omega)
      rw [← skip_fields] at hfields
      exact spans?_more (key?_key name _) (opens_value x depth limit hx _).skip
        (value?_value x depth limit fuel _ hx (follows_comma _) (by omega)) hfields

theorem fieldTexts?_record (fs : List (String × Value)) (hv : Value.fieldsAreFinite fs = true) :
    fieldTexts? (value 0 maxDepth (.record fs)) = some (fieldTexts 1 maxDepth fs) := by
  have hliteral : value 0 maxDepth (.record fs) = '(' :: (commaSeparated (fields 1 maxDepth fs) ++ [')']) := by
    rw [value, if_neg (by decide)]
    rfl
  rw [hliteral]
  cases fs with
  | nil => rfl
  | cons field fs =>
    have hspans := spans?_fields (field :: fs) 1 maxDepth _ hv (by simp) (Nat.lt_succ_self _)
    obtain ⟨tail, htail⟩ := exists_fields_append field.1 field.2 fs 1 maxDepth [')']
    rw [fieldTexts?]
    · simpa using hspans
    · intro he
      rw [htail] at he
      exact (opens_key field.1 _).notClose [] he

theorem fields_eq_map (depth limit : Nat) (fs : List (String × Value)) : fields depth limit fs =
    (fieldTexts depth limit fs).map fun field => key field.1 ++ ':' :: ' ' :: field.2 := by
  induction fs with
  | nil => rfl
  | cons field fs ih => rw [fields, ih, fieldTexts, fieldTexts, List.map_cons, List.map_cons]

/-- A literal has these texts for the values of a record: they stand behind the keys, in order, and are what is
read there. -/
structure HasTexts (literal : List Char) (fs : List (String × Value)) (texts : List (String × List Char)) :
    Prop where
  keys : texts.map Prod.fst = fs.map Prod.fst
  layout : literal =
    '(' :: commaSeparated (texts.map fun field => key field.1 ++ ':' :: ' ' :: field.2) ++ [')']
  read : Value.fieldsAreFinite fs = true → fieldTexts? literal = some texts

/-- The texts for the values of a record are their literals one level down. -/
theorem hasTexts_record (fs : List (String × Value)) :
    HasTexts (value 0 maxDepth (.record fs)) fs (fieldTexts 1 maxDepth fs) where
  keys := by
    rw [fieldTexts, List.map_map]
    rfl
  layout := by rw [value, if_neg (by decide), fields_eq_map]
  read := fieldTexts?_record fs

end Galley.Typst.Literal
