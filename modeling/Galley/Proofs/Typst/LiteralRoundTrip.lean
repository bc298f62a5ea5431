import Galley.Proofs.Typst.LiteralReader

/-! # Literals read back

A literal is read back as the value it was made from, up to what literals do not tell apart: null and
values nested too deeply are empty strings, and an empty record is an empty list. The proof goes
along the value, with any text behind that a literal can stand before. -/

namespace Galley

mutual

/-- Whether all numbers in a value are finite, as those of JSON are. -/
def Value.isFinite : Value → Bool
  | .number n => n.isFinite
  | .list xs => areFinite xs
  | .record fs => fieldsAreFinite fs
  | _ => true

def Value.areFinite : List Value → Bool
  | [] => true
  | x :: xs => x.isFinite && areFinite xs

def Value.fieldsAreFinite : List (String × Value) → Bool
  | [] => true
  | (_, x) :: fs => x.isFinite && fieldsAreFinite fs

end

namespace Typst.Literal

open Text (Stops)

mutual

/-- What is read back of a value when so many levels are written out. -/
def normal : (levels : Nat) → Value → Datum
  | 0, _ => .text ""
  | _ + 1, .null => .text ""
  | _ + 1, .bool b => .bool b
  | _ + 1, .number n => .number n.text
  | _ + 1, .string s => .text s
  | levels + 1, .list xs => .list (normalItems levels xs)
  | levels + 1, .record fs =>
    if fs.isEmpty then .list [] else .dictionary (normalFields levels fs)

def normalItems (levels : Nat) : List Value → List Datum
  | [] => []
  | x :: xs => normal levels x :: normalItems levels xs

def normalFields (levels : Nat) : List (String × Value) → List (String × Datum)
  | [] => []
  | (name, x) :: fs => (name, normal levels x) :: normalFields levels fs

end

/-! ## What can follow a literal -/

/-- A literal can stand before the end of the text, a comma, a parenthesis and the end of a line. -/
def Follows (after : List Char) : Prop := ∀ c ∈ after.head?, c ∈ [',', ')', '\n']

theorem Follows.nil : Follows [] := by simp [Follows]

theorem follows_comma (after : List Char) : Follows (',' :: after) := by simp [Follows]

theorem follows_close (after : List Char) : Follows (')' :: after) := by simp [Follows]

theorem Follows.stops {p : Char → Bool} {after : List Char} (h : Follows after)
    (hp : ∀ c ∈ [',', ')', '\n'], p c = false) : Stops p after :=
  fun c hc => hp c (h c hc)

/-- Below the last level everything is written as the empty string. -/
theorem value_of_lt {depth limit : Nat} (h : limit < depth) (v : Value) :
    value depth limit v = ['"', '"'] := by
  cases v <;> simp only [value, h, if_true]

/-! ## Scalars -/

/-- The literals that are neither strings nor in parentheses. -/
inductive Scalar : List Char → Datum → Prop where
  | word (b : Bool) : Scalar (if b then "true" else "false").toList (.bool b)
  | number {token : List Char} : Number.IsToken token →
      Scalar token (.number (String.ofList token))

theorem Follows.stops_identifier {after : List Char} (h : Follows after) :
    Stops isIdentifierRest after :=
  h.stops (by simp [isIdentifierRest])

theorem isIdentifierRest_of_mem_word (b : Bool) :
    ∀ c ∈ (if b then "true" else "false").toList, isIdentifierRest c = true := by
  cases b <;> simp [isIdentifierRest]

theorem takeWhile_word (b : Bool) {after : List Char} (h : Follows after) :
    ((if b then "true" else "false").toList ++ after).takeWhile isIdentifierRest =
      (if b then "true" else "false").toList :=
  Text.takeWhile_append_of_stops (isIdentifierRest_of_mem_word b) h.stops_identifier

theorem dropWhile_word (b : Bool) {after : List Char} (h : Follows after) :
    ((if b then "true" else "false").toList ++ after).dropWhile isIdentifierRest = after :=
  Text.dropWhile_append_of_stops (isIdentifierRest_of_mem_word b) h.stops_identifier

theorem head_token {token : List Char} (h : Number.IsToken token) :
    ∃ c tail, token = c :: tail ∧ (c = '-' ∨ c.isDigit = true) := by
  cases h with
  | @parts sign whole fraction exponent hs hw hf he =>
    obtain ⟨c, tail, rfl⟩ := List.exists_cons_of_ne_nil hw.ne
    have hsign : sign = [] ∨ sign = ['-'] := by simpa using hs
    rcases hsign with rfl | rfl
    · exact ⟨c, _, rfl, .inr (hw.all c (by simp))⟩
    · exact ⟨'-', _, rfl, .inl rfl⟩

/-- The first character tells a scalar from what the reader looks for before it. -/
theorem head_scalar {t : List Char} {x : Datum} (h : Scalar t x) :
    ∃ c tail, t = c :: tail ∧ c ≠ '"' ∧ c ≠ '(' ∧ c ≠ ')' ∧ c ≠ ' ' := by
  cases h with
  | word b => cases b <;> exact ⟨_, _, rfl, by decide, by decide, by decide, by decide⟩
  | number ht =>
    obtain ⟨c, tail, rfl, hc⟩ := head_token ht
    refine ⟨c, tail, rfl, ?_, ?_, ?_, ?_⟩ <;>
      · rintro rfl
        revert hc
        decide

theorem head_takeWhile {p : Char → Bool} {c first : Char} {text rest : List Char}
    (h : (c :: text).takeWhile p = first :: rest) : c = first := by
  rw [List.takeWhile_cons] at h
  split at h
  · exact (List.cons.inj h).1
  · cases h

/-- No key is read where no identifier begins. -/
theorem key?_eq_none {c : Char} {text : List Char} (hq : c ≠ '"')
    (hs : isIdentifierStart c = false) : key? (c :: text) = none := by
  have hname : isIdentifier (String.ofList ((c :: text).takeWhile isIdentifierRest)) = false := by
    rw [← Bool.not_eq_true, isIdentifier_iff]
    rintro ⟨c', rest, hname, hc, -⟩
    rw [String.toList_ofList] at hname
    rw [← head_takeWhile hname, hs] at hc
    cases hc
  rw [key?]
  · simp only [hname]
    split <;> rfl
  · exact fun _ he => hq (List.cons.inj he).1

theorem key?_scalar {t after : List Char} {x : Datum} (h : Scalar t x) (ha : Follows after) :
    key? (t ++ after) = none := by
  cases h with
  | word b =>
    have hcolon : ∀ rest, after ≠ ':' :: rest := by
      rintro rest rfl
      exact absurd (ha ':' rfl) (by decide)
    rw [key?]
    · simp only [dropWhile_word b ha]
    · intro rest he
      cases b <;> cases he
  | number ht =>
    obtain ⟨c, tail, rfl, hc⟩ := head_token ht
    rw [List.cons_append]
    rcases hc with rfl | hc
    · exact key?_eq_none (by decide) (by decide)
    · refine key?_eq_none ?_ (isIdentifierStart_of_isDigit hc)
      rintro rfl
      cases hc

theorem scalar?_append {t after : List Char} {x : Datum} (h : Scalar t x) (ha : Follows after) :
    scalar? (t ++ after) = some (x, after) := by
  cases h with
  | word b =>
    unfold scalar?
    rw [takeWhile_word b ha, dropWhile_word b ha]
    cases b <;> rfl
  | number ht =>
    have hstops : Stops Number.continues after := ha.stops (by simp [Number.continues, Char.isDigit])
    have hread := Number.readToken?_append ht hstops
    obtain ⟨c, tail, rfl, hc⟩ := head_token ht
    have hword : ∀ first rest, first ∈ ['t', 'f'] →
        (c :: tail ++ after).takeWhile isIdentifierRest ≠ first :: rest := by
      intro first rest hfirst he
      have hhead : c = first := head_takeWhile he
      subst hhead
      simp only [List.mem_cons, List.not_mem_nil, or_false] at hfirst
      rcases hfirst with rfl | rfl <;> exact absurd hc (by decide)
    unfold scalar?
    rw [if_neg (hword _ _ (by decide)), if_neg (hword _ _ (by decide)), hread]
    rfl

/-- A scalar is read back. -/
theorem value?_scalar {t after : List Char} {x : Datum} (h : Scalar t x) (ha : Follows after)
    (fuel : Nat) : value? (fuel + 1) (t ++ after) = some (x, after) := by
  have hread := scalar?_append h ha
  obtain ⟨c, tail, rfl, hquote, hopen, -⟩ := head_scalar h
  rw [value?]
  · exact hread
  · exact fun _ he => hquote (List.cons.inj he).1
  · exact fun _ he => hopen (List.cons.inj he).1
  · exact fun _ he => hopen (List.cons.inj he).1

/-! ## The steps of the reader -/

theorem value?_string (text : String) (after : List Char) (fuel : Nat) :
    value? (fuel + 1) (string text ++ after) = some (.text text, after) := by
  rw [string_append, value?, content?_string, Option.map_some, String.ofList_toList]

theorem key?_string {after : List Char} (text : String) (ha : Follows after) :
    key? (string text ++ after) = none := by
  have hcolon : ∀ rest, after ≠ ':' :: rest := by
    rintro rest rfl
    exact absurd (ha ':' rfl) (by decide)
  rw [string_append, key?, content?_string]
  split
  · next rest he => exact absurd (Prod.mk.inj (Option.some.inj he)).2 (hcolon rest)
  · rfl

theorem value?_dictionary {text after : List Char} {fuel : Nat} {fs : List (String × Datum)}
    (hclose : ∀ rest, text ≠ ')' :: rest) (hkey : (key? text).isSome = true)
    (hfields : fields? fuel text = some (fs, after)) :
    value? (fuel + 1) ('(' :: text) = some (.dictionary fs, after) := by
  rw [value?]
  · rw [if_pos hkey, hfields, Option.map_some]
  · exact hclose

theorem value?_list {text rest after : List Char} {fuel : Nat} {x : Datum} {xs : List Datum}
    (hclose : ∀ rest, text ≠ ')' :: rest) (hkey : key? text = none)
    (hfirst : value? fuel text = some (x, ',' :: rest))
    (hitems : items? fuel (skip rest) = some (xs, after)) :
    value? (fuel + 1) ('(' :: text) = some (.list (x :: xs), after) := by
  rw [value?]
  · rw [hkey, hfirst]
    simp only [hitems]
    rfl
  · exact hclose

theorem items?_last {text after : List Char} {fuel : Nat} {x : Datum}
    (hclose : ∀ rest, text ≠ ')' :: rest) (hx : value? fuel text = some (x, ')' :: after)) :
    items? (fuel + 1) text = some ([x], after) := by
  rw [items?]
  · rw [hx]
    rfl
  · exact hclose

theorem items?_more {text rest after : List Char} {fuel : Nat} {x : Datum} {xs : List Datum}
    (hclose : ∀ rest, text ≠ ')' :: rest) (hx : value? fuel text = some (x, ',' :: rest))
    (hxs : items? fuel (skip rest) = some (xs, after)) :
    items? (fuel + 1) text = some (x :: xs, after) := by
  rw [items?]
  · rw [hx]
    simp only [hxs]
    rfl
  · exact hclose

theorem fields?_last {text rest after : List Char} {fuel : Nat} {name : String} {x : Datum}
    (hkey : key? text = some (name, rest)) (hclose : ∀ rest, text ≠ ')' :: rest)
    (hx : value? fuel (skip rest) = some (x, ')' :: after)) :
    fields? (fuel + 1) text = some ([(name, x)], after) := by
  rw [fields?]
  · rw [hkey]
    simp only [hx]
  · exact hclose

theorem fields?_more {text rest next after : List Char} {fuel : Nat} {name : String} {x : Datum}
    {fs : List (String × Datum)} (hkey : key? text = some (name, rest))
    (hclose : ∀ rest, text ≠ ')' :: rest)
    (hx : value? fuel (skip rest) = some (x, ',' :: next))
    (hfs : fields? fuel (skip next) = some (fs, after)) :
    fields? (fuel + 1) text = some ((name, x) :: fs, after) := by
  rw [fields?]
  · rw [hkey]
    simp only [hx, hfs]
    rfl
  · exact hclose

/-! ## Literals of values -/

/-- A literal is a string, a scalar or something in parentheses. -/
theorem value_shape (v : Value) (depth limit : Nat) (hv : v.isFinite = true) :
    (∃ s, value depth limit v = string s) ∨ (∃ x, Scalar (value depth limit v) x) ∨
      ∃ tail, value depth limit v = '(' :: tail := by
  by_cases h : limit < depth
  · exact .inl ⟨"", by rw [value_of_lt h]; rfl⟩
  cases v with
  | null => exact .inl ⟨"", rfl⟩
  | bool b => exact .inr (.inl ⟨_, by rw [value, if_neg h]; exact .word b⟩)
  | number n =>
    refine .inr (.inl ⟨.number (String.ofList n.text.toList), ?_⟩)
    rw [value, if_neg h]
    exact .number (Number.isToken_text hv)
  | string s => exact .inl ⟨s, by rw [value, if_neg h]⟩
  | list xs =>
    refine .inr (.inr ?_)
    rw [value, if_neg h]
    split
    · exact ⟨_, rfl⟩
    · exact ⟨_, rfl⟩
  | record fs => exact .inr (.inr ⟨_, by rw [value, if_neg h]; rfl⟩)

theorem head_value (v : Value) (depth limit : Nat) (hv : v.isFinite = true) :
    ∃ c tail, value depth limit v = c :: tail ∧ c ≠ ')' ∧ c ≠ ' ' := by
  rcases value_shape v depth limit hv with ⟨s, h⟩ | ⟨x, h⟩ | ⟨tail, h⟩
  · exact ⟨'"', _, by rw [h]; rfl, by decide, by decide⟩
  · obtain ⟨c, tail, he, -, -, hclose, hspace⟩ := head_scalar h
    exact ⟨c, tail, he, hclose, hspace⟩
  · exact ⟨'(', tail, h, by decide, by decide⟩

theorem key?_value (v : Value) (depth limit : Nat) (hv : v.isFinite = true) {after : List Char}
    (ha : Follows after) : key? (value depth limit v ++ after) = none := by
  rcases value_shape v depth limit hv with ⟨s, h⟩ | ⟨x, h⟩ | ⟨tail, h⟩
  · rw [h]
    exact key?_string s ha
  · exact key?_scalar h ha
  · rw [h]
    exact key?_eq_none (by decide) (by decide)

/-! ## The round trip -/

/-- What begins with neither a space nor the closing parenthesis, as literals and keys do. -/
structure Opens (text : List Char) : Prop where
  notClose : ∀ rest, text ≠ ')' :: rest
  skip : skip (' ' :: text) = text

theorem Opens.of_head {text : List Char}
    (h : ∃ c tail, text = c :: tail ∧ c ≠ ')' ∧ c ≠ ' ') (more : List Char) :
    Opens (text ++ more) := by
  obtain ⟨c, tail, rfl, hclose, hspace⟩ := h
  refine ⟨fun rest he => hclose (List.cons.inj he).1, ?_⟩
  simp [Literal.skip, hspace]

theorem opens_value (v : Value) (depth limit : Nat) (hv : v.isFinite = true) (more : List Char) :
    Opens (value depth limit v ++ more) :=
  .of_head (head_value v depth limit hv) more

theorem opens_key (name : String) (more : List Char) : Opens (key name ++ more) := by
  refine .of_head ?_ more
  unfold key
  split
  · next h =>
    obtain ⟨c, tail, hname, hc, -⟩ := isIdentifier_iff.1 h
    refine ⟨c, tail, hname, ?_, ?_⟩
    · rintro rfl
      cases hc
    · rintro rfl
      cases hc
  · exact ⟨'"', _, rfl, by decide, by decide⟩

theorem skip_close (after : List Char) : skip (')' :: after) = ')' :: after := by
  simp [skip]

theorem items?_close {fuel : Nat} (h : 0 < fuel) (after : List Char) :
    items? fuel (')' :: after) = some ([], after) := by
  obtain ⟨n, rfl⟩ : ∃ n, fuel = n + 1 := ⟨fuel - 1, by omega⟩
  rw [items?]

theorem value_list_single {depth limit : Nat} (h : ¬limit < depth) (x : Value) :
    value depth limit (.list [x]) = '(' :: (value (depth + 1) limit x ++ [',', ')']) := by
  rw [value, if_neg h]
  rfl

theorem value_list_more {depth limit : Nat} (h : ¬limit < depth) (x y : Value)
    (rest : List Value) : value depth limit (.list (x :: y :: rest)) =
      '(' :: (value (depth + 1) limit x ++ ',' :: ' ' ::
        (commaSeparated (items (depth + 1) limit (y :: rest)) ++ [')'])) := by
  have hparts : value depth limit (.list (x :: y :: rest)) =
      '(' :: commaSeparated (items (depth + 1) limit (x :: y :: rest)) ++ [')'] := by
    rw [value, if_neg h]
    rfl
  rw [hparts]
  simp [items, commaSeparated]

theorem commaSeparated_items (x y : Value) (rest : List Value) (depth limit : Nat) :
    commaSeparated (items depth limit (x :: y :: rest)) =
      value depth limit x ++ ',' :: ' ' :: commaSeparated (items depth limit (y :: rest)) := rfl

theorem commaSeparated_fields (name : String) (x : Value) (f : String × Value)
    (rest : List (String × Value)) (depth limit : Nat) :
    commaSeparated (fields depth limit ((name, x) :: f :: rest)) =
      key name ++ ':' :: ' ' :: (value depth limit x ++ ',' :: ' ' ::
        commaSeparated (fields depth limit (f :: rest))) := by
  simp [fields, commaSeparated]

theorem opens_items (x : Value) (rest : List Value) (depth limit : Nat) (hx : x.isFinite = true)
    (more : List Char) : Opens (commaSeparated (items depth limit (x :: rest)) ++ more) := by
  cases rest with
  | nil => exact opens_value x depth limit hx more
  | cons y rest =>
    rw [commaSeparated_items, List.append_assoc]
    exact opens_value x depth limit hx _

theorem exists_fields_append (name : String) (x : Value) (rest : List (String × Value))
    (depth limit : Nat) (more : List Char) : ∃ tail,
      commaSeparated (fields depth limit ((name, x) :: rest)) ++ more =
        key name ++ ':' :: tail := by
  cases rest with
  | nil => exact ⟨' ' :: value depth limit x ++ more, by simp [fields, commaSeparated]⟩
  | cons f rest =>
    rw [commaSeparated_fields, List.append_assoc, List.cons_append]
    exact ⟨_, rfl⟩

theorem skip_fields (f : String × Value) (rest : List (String × Value)) (depth limit : Nat)
    (more : List Char) : skip (' ' :: (commaSeparated (fields depth limit (f :: rest)) ++ more)) =
      commaSeparated (fields depth limit (f :: rest)) ++ more := by
  obtain ⟨tail, htail⟩ := exists_fields_append f.1 f.2 rest depth limit more
  rw [htail]
  exact (opens_key f.1 _).skip

mutual

/-- A value is read back from its literal. The fuel has to exceed the length of the literal. -/
theorem value?_value (v : Value) (depth limit fuel : Nat) (after : List Char)
    (hv : v.isFinite = true) (ha : Follows after)
    (hfuel : (value depth limit v).length < fuel) :
    value? fuel (value depth limit v ++ after) =
      some (normal (limit + 1 - depth) v, after) := by
  obtain ⟨fuel, rfl⟩ : ∃ n, fuel = n + 1 := ⟨fuel - 1, by omega⟩
  by_cases h : limit < depth
  · have hlevels : limit + 1 - depth = 0 := by omega
    rw [value_of_lt h, hlevels, normal]
    exact value?_string "" after fuel
  have hlevels : limit + 1 - depth = (limit + 1 - (depth + 1)) + 1 := by omega
  rw [hlevels]
  cases v with
  | null => exact value?_string "" after fuel
  | bool b =>
    rw [value, if_neg h]
    exact value?_scalar (.word b) ha fuel
  | number n =>
    rw [value, if_neg h, normal]
    have := value?_scalar (.number (Number.isToken_text hv)) ha fuel
    rwa [String.ofList_toList] at this
  | string s =>
    rw [value, if_neg h]
    exact value?_string s after fuel
  | list xs =>
    match xs with
    | [] =>
      rw [value, if_neg h]
      exact value?.eq_3 ..
    | [x] =>
      obtain ⟨hx, -⟩ := Bool.and_eq_true_iff.1 hv
      rw [value_list_single h] at hfuel ⊢
      simp only [List.length_cons, List.length_append, List.length_nil] at hfuel
      simp only [List.cons_append, List.append_assoc, List.nil_append]
      have hfirst := value?_value x (depth + 1) limit fuel (',' :: ')' :: after) hx
        (follows_comma _) (by omega)
      have hitems : items? fuel (skip (')' :: after)) = some ([], after) := by
        rw [skip_close, items?_close (by omega)]
      exact value?_list (opens_value x (depth + 1) limit hx _).notClose
        (key?_value x (depth + 1) limit hx (follows_comma _)) hfirst hitems
    | x :: y :: rest =>
      obtain ⟨hx, hrest⟩ := Bool.and_eq_true_iff.1 hv
      rw [value_list_more h] at hfuel ⊢
      simp only [List.length_cons, List.length_append, List.length_nil] at hfuel
      simp only [List.cons_append, List.append_assoc, List.nil_append]
      have hfirst := value?_value x (depth + 1) limit fuel
        (',' :: ' ' :: (commaSeparated (items (depth + 1) limit (y :: rest)) ++ ')' :: after)) hx
        (follows_comma _) (by omega)
      have hy : y.isFinite = true := (Bool.and_eq_true_iff.1 hrest).1
      have hitems := items?_items (y :: rest) (depth + 1) limit fuel after hrest (by simp) (by omega)
      rw [← (opens_items y rest (depth + 1) limit hy _).skip] at hitems
      exact value?_list (opens_value x (depth + 1) limit hx _).notClose
        (key?_value x (depth + 1) limit hx (follows_comma _)) hfirst hitems
  | record fs =>
    rw [value, if_neg h] at hfuel ⊢
    match fs with
    | [] => exact value?.eq_3 ..
    | (name, x) :: rest =>
      simp only [List.length_cons, List.length_append, List.length_nil] at hfuel
      simp only [List.cons_append, List.append_assoc, List.nil_append]
      have hfields := fields?_fields ((name, x) :: rest) (depth + 1) limit fuel after hv (by simp)
        (by omega)
      obtain ⟨tail, htail⟩ := exists_fields_append name x rest (depth + 1) limit (')' :: after)
      rw [htail] at hfields ⊢
      exact value?_dictionary (opens_key name _).notClose (by rw [key?_key]; rfl) hfields

theorem items?_items (xs : List Value) (depth limit fuel : Nat) (after : List Char)
    (hv : Value.areFinite xs = true) (hne : xs ≠ [])
    (hfuel : (commaSeparated (items depth limit xs)).length + 1 < fuel) :
    items? fuel (commaSeparated (items depth limit xs) ++ ')' :: after) =
      some (normalItems (limit + 1 - depth) xs, after) := by
  obtain ⟨fuel, rfl⟩ : ∃ n, fuel = n + 1 := ⟨fuel - 1, by omega⟩
  match xs with
  | [] => exact absurd rfl hne
  | [x] =>
    obtain ⟨hx, -⟩ := Bool.and_eq_true_iff.1 hv
    simp only [items, commaSeparated] at hfuel ⊢
    have hfirst := value?_value x depth limit fuel (')' :: after) hx (follows_close _) (by omega)
    exact items?_last (opens_value x depth limit hx _).notClose hfirst
  | x :: y :: rest =>
    obtain ⟨hx, hrest⟩ := Bool.and_eq_true_iff.1 hv
    rw [commaSeparated_items] at hfuel ⊢
    simp only [List.length_append, List.length_cons] at hfuel
    simp only [List.cons_append, List.append_assoc]
    have hfirst := value?_value x depth limit fuel
      (',' :: ' ' :: (commaSeparated (items depth limit (y :: rest)) ++ ')' :: after)) hx
      (follows_comma _) (by omega)
    have hy : y.isFinite = true := (Bool.and_eq_true_iff.1 hrest).1
    have hitems := items?_items (y :: rest) depth limit fuel after hrest (by simp) (by omega)
    rw [← (opens_items y rest depth limit hy _).skip] at hitems
    exact items?_more (opens_value x depth limit hx _).notClose hfirst hitems

theorem fields?_fields (fs : List (String × Value)) (depth limit fuel : Nat) (after : List Char)
    (hv : Value.fieldsAreFinite fs = true) (hne : fs ≠ [])
    (hfuel : (commaSeparated (fields depth limit fs)).length + 1 < fuel) :
    fields? fuel (commaSeparated (fields depth limit fs) ++ ')' :: after) =
      some (normalFields (limit + 1 - depth) fs, after) := by
  obtain ⟨fuel, rfl⟩ : ∃ n, fuel = n + 1 := ⟨fuel - 1, by omega⟩
  match fs with
  | [] => exact absurd rfl hne
  | [(name, x)] =>
    obtain ⟨hx, -⟩ := Bool.and_eq_true_iff.1 hv
    simp only [fields, commaSeparated, List.length_append, List.length_cons] at hfuel
    simp only [fields, commaSeparated, List.cons_append, List.append_assoc]
    have hfirst := value?_value x depth limit fuel (')' :: after) hx (follows_close _) (by omega)
    rw [← (opens_value x depth limit hx _).skip] at hfirst
    exact fields?_last (key?_key name _) (opens_key name _).notClose hfirst
  | (name, x) :: f :: rest =>
    obtain ⟨hx, hrest⟩ := Bool.and_eq_true_iff.1 hv
    rw [commaSeparated_fields] at hfuel ⊢
    simp only [List.length_append, List.length_cons] at hfuel
    simp only [List.cons_append, List.append_assoc]
    have hfirst := value?_value x depth limit fuel
      (',' :: ' ' :: (commaSeparated (fields depth limit (f :: rest)) ++ ')' :: after)) hx
      (follows_comma _) (by omega)
    rw [← (opens_value x depth limit hx _).skip] at hfirst
    have hfields := fields?_fields (f :: rest) depth limit fuel after hrest (by simp) (by omega)
    rw [← skip_fields] at hfields
    exact fields?_more (key?_key name _) (opens_key name _).notClose hfirst hfields

end

theorem read?_value (v : Value) (depth limit : Nat) {after : List Char}
    (hv : v.isFinite = true) (ha : Follows after) :
    read? ((encodeWithDepth v depth limit).toList ++ after) =
      some (normal (limit + 1 - depth) v, after) := by
  rw [encodeWithDepth, String.toList_ofList, read?]
  refine value?_value v depth limit _ after hv ha ?_
  rw [List.length_append]
  omega

/-- Literals are read back, so two values have one literal only if they are the same but for what
literals do not tell apart; and whatever a string or a key holds, its literal does not end
early. -/
theorem literals_read_back :
    (∀ (v : Value) (depth limit : Nat) (after : List Char), v.isFinite = true → Follows after →
      read? ((encodeWithDepth v depth limit).toList ++ after) =
        some (normal (limit + 1 - depth) v, after)) ∧
    (∀ (v w : Value) (depth limit : Nat), v.isFinite = true → w.isFinite = true →
      encodeWithDepth v depth limit = encodeWithDepth w depth limit →
      normal (limit + 1 - depth) v = normal (limit + 1 - depth) w) ∧
    (∀ (text : String) (after : List Char),
      read? ((encodeString text).toList ++ after) = some (.text text, after)) ∧
    ∀ (name : String) (after : List Char), key? (key name ++ ':' :: after) = some (name, after) := by
  refine ⟨fun v depth limit after hv ha => read?_value v depth limit hv ha, ?_, ?_, key?_key⟩
  · intro v w depth limit hv hw he
    have hread := read?_value v depth limit hv .nil
    rw [he, read?_value w depth limit hw .nil] at hread
    exact (Prod.mk.inj (Option.some.inj hread)).1.symm
  · intro text after
    rw [encodeString, String.toList_ofList, read?]
    exact value?_string text after _

/-- A quote, null and a key that is a word; null is not told from the empty string. -/
theorem literals_read_back_nested :
    read? ((encodeWithDepth (.record [("a b", .list [.string "\"", .null]),
      ("true", .number (.int 5))]) 0 50).toList ++ [')']) =
      some (.dictionary [("a b", .list [.text "\"", .text ""]), ("true", .number "5")], [')']) ∧
    normal 51 .null = normal 51 (.string "") :=
  ⟨literals_read_back.1 _ 0 50 [')'] (by decide) (follows_close []),
    literals_read_back.2.1 .null (.string "") 0 50 rfl rfl rfl⟩

end Typst.Literal

end Galley
