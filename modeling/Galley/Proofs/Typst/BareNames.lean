import Galley.Proofs.Typst.Expansion

/-! # Names that are written bare

Literals and declarations are read as code: a word before a colon is a key, and what follows `#let` is a
declared name, but not inside of a string. The names that are found are the identifiers among the keys of the
data. All of them have the form of an identifier; those that the language reserves for itself cannot be used
bare all the same, and they are not told apart. -/

namespace Galley.Typst

/-- The words that the language keeps for itself. -/
def reserved : List String :=
  ["none", "auto", "true", "false", "not", "and", "or", "let", "set", "show", "context", "if", "else", "for",
    "in", "while", "break", "continue", "return", "import", "include", "as"]

/-- A name that can stand bare. -/
structure IsUsable (name : String) : Prop where
  identifier : isIdentifier name = true
  free : name ∉ reserved

/-! ## Reading bare names -/

/-- Where a reader stands: in code, behind the beginning of a word that may be empty, in a string, or behind
a backslash there. -/
inductive Reader where
  | code (word : List Char)
  | string
  | escaped

/-- The name that is declared behind a number sign. -/
def declaredName (rest : List Char) : List String :=
  match Text.dropStart? ['l', 'e', 't', ' '] rest with
  | some rest => [String.ofList (rest.takeWhile isIdentifierRest)]
  | none => []

/-- The keys and declared names that stand bare in a text. -/
def bareNames : Reader → List Char → List String
  | _, [] => []
  | .escaped, _ :: rest => bareNames .string rest
  | .string, c :: rest =>
    bareNames (if c = '"' then .code [] else if c = '\\' then .escaped else .string) rest
  | .code word, c :: rest =>
    if c = '"' then bareNames .string rest
    else if c = ':' then (if word.isEmpty then [] else [String.ofList word]) ++ bareNames (.code []) rest
    else if c = '#' then declaredName rest ++ bareNames (.code []) rest
    else bareNames (.code (if isIdentifierRest c then word ++ [c] else [])) rest

def bareNamesOf (text : String) : List String := bareNames (.code []) text.toList

/-- What ends a word and begins neither a string nor a declaration. -/
def IsSign (c : Char) : Prop := isIdentifierRest c = false ∧ c ≠ '"' ∧ c ≠ ':' ∧ c ≠ '#'

instance (c : Char) : Decidable (IsSign c) := inferInstanceAs (Decidable (_ ∧ _ ∧ _ ∧ _))

/-- Code of at least one sign and nothing else. -/
def Signs (code : List Char) : Prop := code ≠ [] ∧ ∀ c ∈ code, IsSign c

instance (code : List Char) : Decidable (Signs code) :=
  decidable_of_iff (code ≠ [] ∧ code.all fun c => IsSign c) (by simp [Signs])

/-- A character of code in which neither a string, a key nor a declaration stands. -/
def IsPlain (c : Char) : Prop := c ≠ '"' ∧ c ≠ ':' ∧ c ≠ '#'

instance (c : Char) : Decidable (IsPlain c) := inferInstanceAs (Decidable (_ ∧ _ ∧ _))

theorem forall_isPlain {code : List Char} (h : (code.all fun c => IsPlain c) = true) :
    ∀ c ∈ code, IsPlain c := by
  simpa using h

/-- Text behind which no word goes on and is no key. -/
def Breaks (rest : List Char) : Prop := ∀ c ∈ rest.head?, isIdentifierRest c = false ∧ c ≠ ':'

variable {word name code part rest signs a b : List Char} {names as bs : List String} {c : Char}

theorem breaks_nil : Breaks [] := by simp [Breaks]

theorem Signs.breaks (h : Signs signs) (rest : List Char) : Breaks (signs ++ rest) := by
  obtain ⟨c, signs, rfl⟩ := List.exists_cons_of_ne_nil h.1
  obtain ⟨hrest, -, hcolon, -⟩ := h.2 c (by simp)
  simpa [Breaks] using ⟨hrest, hcolon⟩

theorem bareNames_of_breaks (h : Breaks rest) (word : List Char) :
    bareNames (.code word) rest = bareNames (.code []) rest := by
  cases rest with
  | nil => simp [bareNames]
  | cons c rest =>
    obtain ⟨hr, hc⟩ := h c rfl
    simp [bareNames, hr, hc]

/-- Signs end the word before them. -/
theorem bareNames_signs (h : Signs signs) (word rest : List Char) :
    bareNames (.code word) (signs ++ rest) = bareNames (.code []) rest := by
  obtain ⟨hne, hall⟩ := h
  induction signs generalizing word with
  | nil => exact absurd rfl hne
  | cons c signs ih =>
    obtain ⟨hrest, hquote, hcolon, hsign⟩ := hall c (by simp)
    rw [List.cons_append, bareNames, if_neg hquote, if_neg hcolon, if_neg hsign, hrest]
    by_cases hs : signs = []
    · simp [hs]
    · exact ih [] hs fun d hd => hall d (by simp [hd])

/-- Code without strings, keys and declarations. -/
theorem bareNames_plain (h : ∀ c ∈ code, IsPlain c) (hb : Breaks rest) (word : List Char) :
    bareNames (.code word) (code ++ rest) = bareNames (.code []) rest := by
  induction code generalizing word with
  | nil => exact bareNames_of_breaks hb word
  | cons c code ih =>
    obtain ⟨hquote, hcolon, hsign⟩ := h c (by simp)
    rw [List.cons_append, bareNames, if_neg hquote, if_neg hcolon, if_neg hsign]
    exact ih (fun d hd => h d (by simp [hd])) _

theorem isPlain_of_isIdentifierRest (h : isIdentifierRest c = true) : IsPlain c := by
  refine ⟨?_, ?_, ?_⟩ <;>
    · rintro rfl
      exact absurd h (by decide)

theorem isPlain_of_mem_number {n : Number} (h : c ∈ n.text.toList) : IsPlain c := by
  refine ⟨(Number.mem_text h).1, ?_, (Number.mem_text h).2⟩
  rintro rfl
  rcases Number.of_mem_text h with hdigit | hmem
  · exact absurd hdigit (by decide)
  · exact absurd hmem (by decide)

theorem bareNames_word (h : ∀ c ∈ name, isIdentifierRest c = true) (word rest : List Char) :
    bareNames (.code word) (name ++ rest) = bareNames (.code (word ++ name)) rest := by
  induction name generalizing word with
  | nil => simp
  | cons c name ih =>
    have hc := h c (by simp)
    obtain ⟨hquote, hcolon, hsign⟩ := isPlain_of_isIdentifierRest hc
    rw [List.cons_append, bareNames, if_neg hquote, if_neg hcolon, if_neg hsign, if_pos hc,
      ih (fun d hd => h d (by simp [hd]))]
    simp

/-- No name stands in the literal of a string. -/
theorem bareNames_string (text : String) (word rest : List Char) :
    bareNames (.code word) (Literal.string text ++ rest) = bareNames (.code []) rest := by
  have hcontent : ∀ content : List Char, bareNames .string (content.flatMap Literal.escape ++ '"' :: rest) =
      bareNames (.code []) rest := by
    intro content
    induction content with
    | nil => simp [bareNames]
    | cons c content ih =>
      rw [List.flatMap_cons, List.append_assoc]
      rcases Literal.escape_cases c with ⟨he, hc⟩ | ⟨code, hm, he⟩
      · simp only [List.mem_cons, not_or] at hc
        simp [he, bareNames, hc.1, hc.2.1, ih]
      · rw [he]
        have hcodes : ∀ code ∈ Literal.codes, ∀ more : List Char,
            bareNames .string ('\\' :: code ++ more) = bareNames .string more := by
          simp [Literal.codes, bareNames]
        rw [hcodes code hm, ih]
  rw [Literal.string, List.cons_append, List.cons_append, bareNames, if_pos rfl, List.append_assoc]
  exact hcontent text.toList

/-! ## Parts that write names -/

/-- A part in which these names stand bare, and no part of a name that goes on behind it. -/
def Writes (names : List String) (part : List Char) : Prop :=
  ∀ rest, Breaks rest → bareNames (.code []) (part ++ rest) = names ++ bareNames (.code []) rest

theorem Writes.bareNames (h : Writes names part) : bareNames (.code []) part = names := by
  simpa [Typst.bareNames] using h [] breaks_nil

theorem writes_nil : Writes [] [] := fun _ _ => rfl

theorem writes_plain (h : ∀ c ∈ part, IsPlain c) : Writes [] part := fun _ hb => bareNames_plain h hb []

theorem writes_string (text : String) : Writes [] (Literal.string text) :=
  fun rest _ => bareNames_string text [] rest

/-- Two parts with signs between them. -/
theorem Writes.append (ha : Writes as a) (hs : Signs signs) (hb : Writes bs b) :
    Writes (as ++ bs) (a ++ (signs ++ b)) := by
  intro rest hrest
  rw [List.append_assoc, List.append_assoc, ha _ (hs.breaks _), bareNames_signs hs, hb rest hrest,
    List.append_assoc]

theorem Writes.parentheses (h : Writes names part) {close : List Char} (hc : Signs close) :
    Writes names ('(' :: part ++ close) := by
  have hopen : Signs ['('] := by decide
  simpa using writes_nil.append hopen (h.append hc writes_nil)

/-- A key is bare when it is an identifier. -/
theorem writes_field (name : String) (h : Writes names part) :
    Writes ([name].filter isIdentifier ++ names) (Literal.key name ++ ':' :: ' ' :: part) := by
  intro rest hrest
  have hspace := bareNames_signs (by decide : Signs [' ']) [] (part ++ rest)
  rw [List.singleton_append] at hspace
  rw [List.append_assoc, List.cons_append, List.cons_append, Literal.key]
  by_cases hname : isIdentifier name = true
  · have hne : name.toList.isEmpty = false := by
      obtain ⟨c, tail, hlist, -⟩ := isIdentifier_iff.1 hname
      rw [hlist]
      rfl
    rw [if_pos hname, bareNames_word (fun c hc => isIdentifierRest_of_mem hname hc), List.nil_append,
      bareNames, if_neg (by decide), if_pos rfl, hne, hspace, h rest hrest]
    simp [hname]
  · rw [if_neg hname, bareNames_string, bareNames, if_neg (by decide), if_pos rfl, hspace, h rest hrest]
    simp [hname]

/-! ## The keys of values -/

mutual

/-- The keys of the records in a value, down to so many levels. -/
def keysWithin : Nat → Value → List String
  | levels + 1, .list items => itemKeys levels items
  | levels + 1, .record fields => fieldKeys levels fields
  | _, _ => []

def itemKeys (levels : Nat) : List Value → List String
  | [] => []
  | x :: xs => keysWithin levels x ++ itemKeys levels xs

def fieldKeys (levels : Nat) : List (String × Value) → List String
  | [] => []
  | (name, x) :: fields => name :: (keysWithin levels x ++ fieldKeys levels fields)

end

mutual

/-- The literal of a value shows the identifiers among the keys that are written out. -/
theorem writes_value (v : Value) (depth limit : Nat) :
    Writes ((keysWithin (limit + 1 - depth) v).filter isIdentifier) (Literal.value depth limit v) := by
  by_cases h : limit < depth
  · have hlevels : limit + 1 - depth = 0 := by omega
    rw [hlevels]
    cases v <;>
      · simp only [Literal.value, h, if_true]
        exact writes_string ""
  have hlevels : limit + 1 - depth = (limit + 1 - (depth + 1)) + 1 := by omega
  rw [hlevels]
  cases v with
  | null => exact writes_string ""
  | bool b =>
    rw [Literal.value, if_neg h]
    cases b <;> exact writes_plain (forall_isPlain (by decide))
  | number n =>
    rw [Literal.value, if_neg h]
    exact writes_plain fun c hc => isPlain_of_mem_number hc
  | string s =>
    rw [Literal.value, if_neg h]
    exact writes_string s
  | list xs =>
    have hitems := writes_items xs (depth + 1) limit
    rw [Literal.value, if_neg h, keysWithin]
    split
    · next part hpart =>
      rw [hpart] at hitems
      exact hitems.parentheses (by decide)
    · exact hitems.parentheses (by decide)
  | record fs =>
    have hfields := writes_fields fs (depth + 1) limit
    rw [Literal.value, if_neg h, keysWithin]
    exact hfields.parentheses (by decide)

theorem writes_items (xs : List Value) (depth limit : Nat) :
    Writes ((itemKeys (limit + 1 - depth) xs).filter isIdentifier)
      (Literal.commaSeparated (Literal.items depth limit xs)) := by
  have hcomma : Signs [',', ' '] := by decide
  match xs with
  | [] => exact writes_nil
  | [x] =>
    have hx := writes_value x depth limit
    simpa [itemKeys, Literal.items, Literal.commaSeparated] using hx
  | x :: y :: rest =>
    have hx := writes_value x depth limit
    have hrest := writes_items (y :: rest) depth limit
    rw [itemKeys, List.filter_append]
    exact hx.append hcomma hrest

theorem writes_fields (fs : List (String × Value)) (depth limit : Nat) :
    Writes ((fieldKeys (limit + 1 - depth) fs).filter isIdentifier)
      (Literal.commaSeparated (Literal.fields depth limit fs)) := by
  have hcomma : Signs [',', ' '] := by decide
  match fs with
  | [] => exact writes_nil
  | [(name, x)] =>
    have hfield := writes_field name (writes_value x depth limit)
    rw [← List.filter_append] at hfield
    simpa [fieldKeys, Literal.fields, Literal.commaSeparated] using hfield
  | (name, x) :: f :: rest =>
    have hfield := writes_field name (writes_value x depth limit)
    have hrest := writes_fields (f :: rest) depth limit
    rw [fieldKeys, ← List.singleton_append, List.filter_append, List.filter_append, ← List.append_assoc]
    exact hfield.append hcomma hrest

end

/-! ## Data imports -/

namespace DataImport

variable {data : Record} {d : DataImport} {path : List Char} {v : Value}

/-- The identifiers among the keys of a value, down to so many levels. -/
def bareKeys (levels : Nat) (v : Value) : List String := (keysWithin levels v).filter isIdentifier

theorem writes_declaration {name : String} (h : isIdentifier name = true) (hv : Writes names part) :
    Writes (name :: names) (declaration name.toList part) := by
  intro rest hrest
  have hword : ∀ c ∈ name.toList, isIdentifierRest c = true := fun c hc => isIdentifierRest_of_mem h hc
  have hequals : Signs [' ', '=', ' '] := by decide
  have hdeclaration : declaration name.toList part ++ rest = '#' :: (['l', 'e', 't', ' '] ++
      (name.toList ++ ([' ', '=', ' '] ++ (part ++ rest)))) := by
    show ['#', 'l', 'e', 't', ' '] ++ name.toList ++ [' ', '=', ' '] ++ part ++ rest = _
    simp
  have hname : declaredName (['l', 'e', 't', ' '] ++ (name.toList ++ ([' ', '=', ' '] ++ (part ++ rest)))) =
      [name] := by
    have hstops : Text.Stops isIdentifierRest ([' ', '=', ' '] ++ (part ++ rest)) :=
      Text.stops_cons.2 (by decide)
    rw [declaredName, Text.dropStart?_eq_some_iff.2 rfl]
    simp only [Text.takeWhile_append_of_stops hword hstops, String.ofList_toList]
  have hlet : ∀ c ∈ ['l', 'e', 't', ' '] ++ name.toList, IsPlain c :=
    List.forall_mem_append.2
      ⟨forall_isPlain (by decide), fun c hc => isPlain_of_isIdentifierRest (hword c hc)⟩
  rw [hdeclaration, bareNames, if_neg (by decide), if_neg (by decide), if_pos rfl, hname, ← List.append_assoc,
    bareNames_plain hlet (hequals.breaks _), bareNames_signs hequals, hv rest hrest]
  rfl

/-- Lines that write their names do so together. -/
theorem writes_intercalate {parts : List (List String × List Char)} (h : ∀ p ∈ parts, Writes p.1 p.2) :
    Writes (parts.flatMap Prod.fst) (['\n'].intercalate (parts.map Prod.snd)) := by
  have hbreak : Signs ['\n'] := by decide
  induction parts with
  | nil => exact writes_nil
  | cons p parts ih =>
    have hp := h p (by simp)
    have hrest := ih fun q hq => h q (List.mem_cons_of_mem _ hq)
    cases parts with
    | nil => simpa using hp
    | cons q parts =>
      rw [List.map_cons, List.map_cons, List.intercalate_cons_cons, List.append_assoc]
      exact hp.append hbreak hrest

/-- The declarations of a value, each with the names that stand bare in it. -/
def namedDeclarations (name : String) : Value → List (List String × List Char)
  | .record fields =>
    (name :: bareKeys (Literal.maxDepth + 1) (.record fields),
      declaration name.toList (Literal.value 0 Literal.maxDepth (.record fields))) ::
      (fields.filter fun field => isIdentifier field.1).map fun field =>
        (field.1 :: bareKeys Literal.maxDepth field.2,
          declaration field.1.toList (Literal.value 1 Literal.maxDepth field.2))
  | v => [(name :: bareKeys (Literal.maxDepth + 1) v,
      declaration name.toList (Literal.value 0 Literal.maxDepth v))]

theorem map_snd_namedDeclarations (name : String) (v : Value) :
    (namedDeclarations name v).map Prod.snd = declarations name.toList v := by
  cases v with
  | record fields => simp [namedDeclarations, declarations]
  | null | bool | number | string | list => rfl

theorem writes_namedDeclarations {name : String} (h : isIdentifier name = true) (v : Value) :
    ∀ p ∈ namedDeclarations name v, Writes p.1 p.2 := by
  have hwhole : Writes (name :: bareKeys (Literal.maxDepth + 1) v)
      (declaration name.toList (Literal.value 0 Literal.maxDepth v)) :=
    writes_declaration h (writes_value v 0 Literal.maxDepth)
  cases v with
  | record fields =>
    intro p hp
    rcases List.mem_cons.1 hp with rfl | hp
    · exact hwhole
    · obtain ⟨field, hfield, rfl⟩ := List.mem_map.1 hp
      exact writes_declaration (List.mem_filter.1 hfield).2 (writes_value field.2 1 Literal.maxDepth)
  | null | bool | number | string | list => exact List.forall_mem_singleton.2 hwhole

/-- The import of a block shows no names, whatever its path is. -/
theorem bareNames_importLine (hp : '"' ∉ path) : bareNames (.code []) (importLine path) = [] := by
  have hclosed : ∀ path : List Char, '"' ∉ path →
      bareNames .string (path ++ '"' :: [' ', ':', ' ', '*']) = [] ∧
        bareNames .escaped (path ++ '"' :: [' ', ':', ' ', '*']) = [] := by
    intro path hp
    induction path with
    | nil => exact ⟨by decide, by decide⟩
    | cons c path ih =>
      rw [List.mem_cons, not_or] at hp
      obtain ⟨hstring, hescaped⟩ := ih hp.2
      refine ⟨?_, by rw [List.cons_append, bareNames, hstring]⟩
      rw [List.cons_append, bareNames, if_neg (Ne.symm hp.1)]
      split
      · exact hescaped
      · exact hstring
  have himport : ∀ rest, bareNames (.code []) (['#', 'i', 'm', 'p', 'o', 'r', 't', ' '] ++ '"' :: rest) =
      bareNames .string rest := by
    intro rest
    have hname : declaredName ('i' :: 'm' :: 'p' :: 'o' :: 'r' :: 't' :: ' ' :: '"' :: rest) = [] := rfl
    have hplain : ∀ c ∈ ['i', 'm', 'p', 'o', 'r', 't', ' '], IsPlain c :=
      forall_isPlain (by decide)
    have hquote : Breaks ('"' :: rest) := by
      simpa [Breaks] using (by decide : isIdentifierRest '"' = false)
    have hcode := bareNames_plain hplain hquote []
    simp only [List.cons_append, List.nil_append] at hcode ⊢
    rw [bareNames, if_neg (by decide), if_neg (by decide), if_pos rfl, hname, hcode, List.nil_append,
      bareNames, if_pos rfl]
  rw [importLine_eq, himport]
  exact (hclosed path hp).1

/-- The names that stand bare in the block of a directive. -/
theorem bareNames_block (hp : '"' ∉ d.path) : bareNames (.code []) (block data d) =
    match value? data d with
    | some v => (namedDeclarations (String.ofList d.name) v).flatMap Prod.fst
    | none => [] := by
  have hline := bareNames_importLine hp
  rw [block_eq]
  cases hv : value? data d with
  | none =>
    have hnone : declared data d = [] := by simp only [declared, hv]
    rw [hnone, List.nil_append]
    split
    · rfl
    · simpa using hline
  | some v =>
    have hsome : declared data d = declarations d.name v := by simp only [declared, hv]
    have hwrites := writes_intercalate (writes_namedDeclarations (isIdentifier_of_value? hv) v)
    rw [map_snd_namedDeclarations, String.toList_ofList] at hwrites
    rw [hsome]
    split
    · rw [List.append_nil]
      exact hwrites.bareNames
    · have hbreak : Signs ['\n'] := by decide
      rw [intercalate_append_singleton (declarations_ne_nil _ _),
        ← List.singleton_append (l := importLine d.path), hwrites _ (hbreak.breaks _),
        bareNames_signs hbreak, hline, List.append_nil]

theorem quote_not_mem_path {text : String} (h : d ∈ directives text) : '"' ∉ d.path := by
  obtain ⟨piece, hpiece, hd⟩ := List.mem_filterMap.1 h
  generalize text.toList = chars at hpiece
  fun_induction pieces chars with
  | case1 chars d' rest hread ih =>
    rcases List.mem_cons.1 hpiece with rfl | hpiece
    · obtain ⟨lead, path, gap, blanks, name, hparts, rfl⟩ := exists_parts_of_read? hread
      obtain rfl := Option.some.inj hd
      exact hparts.path
    · exact ih hpiece
  | case2 hread => cases hpiece
  | case3 c rest hread ih =>
    rcases List.mem_cons.1 hpiece with rfl | hpiece
    · cases hd
    · exact ih hpiece

theorem mem_fieldKeys {levels : Nat} {fields : Record} {key : String} : key ∈ fieldKeys levels fields ↔
    ∃ field ∈ fields, key = field.1 ∨ key ∈ keysWithin levels field.2 := by
  induction fields with
  | nil => simp [fieldKeys]
  | cons field fields ih =>
    obtain ⟨name, x⟩ := field
    simp [fieldKeys, ih, or_assoc]

/-- A block shows the name that it injects, and the identifiers among the keys that are written out; what it
declares besides are such keys. -/
theorem mem_bareNamesOf_block (hp : '"' ∉ d.path) {name : String} :
    name ∈ bareNamesOf (String.ofList (block data d)) ↔ ∃ v, value? data d = some v ∧
      (name = String.ofList d.name ∨
        name ∈ keysWithin (Literal.maxDepth + 1) v ∧ isIdentifier name = true) := by
  rw [bareNamesOf, String.toList_ofList, bareNames_block hp]
  cases hv : value? data d with
  | none => simp
  | some v =>
    have hwhole : name ∈ String.ofList d.name :: bareKeys (Literal.maxDepth + 1) v ↔
        name = String.ofList d.name ∨
          name ∈ keysWithin (Literal.maxDepth + 1) v ∧ isIdentifier name = true := by
      rw [List.mem_cons, bareKeys, List.mem_filter]
    simp only [Option.some.injEq, exists_eq_left', ← hwhole]
    cases v with
    | record fields =>
      rw [namedDeclarations, List.flatMap_cons, List.mem_append]
      refine or_iff_left_of_imp fun h => ?_
      obtain ⟨p, hp, hname⟩ := List.mem_flatMap.1 h
      obtain ⟨field, hfield, rfl⟩ := List.mem_map.1 hp
      obtain ⟨hmem, hidentifier⟩ := List.mem_filter.1 hfield
      refine hwhole.2 (.inr ?_)
      rw [keysWithin, mem_fieldKeys]
      rcases List.mem_cons.1 hname with rfl | hname
      · exact ⟨⟨field, hmem, .inl rfl⟩, hidentifier⟩
      · obtain ⟨hkey, hbare⟩ := List.mem_filter.1 hname
        exact ⟨⟨field, hmem, .inr hkey⟩, hbare⟩
    | null | bool | number | string | list => simp [namedDeclarations]

end DataImport

/-! ## What can be used -/

theorem mem_bareNamesOf_encode {v : Value} {depth limit : Nat} {name : String} :
    name ∈ bareNamesOf (Literal.encodeWithDepth v depth limit) ↔
      name ∈ keysWithin (limit + 1 - depth) v ∧ isIdentifier name = true := by
  rw [bareNamesOf, Literal.encodeWithDepth, String.toList_ofList, (writes_value v depth limit).bareNames,
    List.mem_filter]

/-- In the literal of a value and in the block of a data import, the names that stand bare are the injected
name and the identifiers among the keys that are written out. Each has the form of an identifier. All of them
can be used exactly when none of them is reserved. -/
theorem bare_names_usable_unless_reserved (v : Value) (depth limit : Nat) (text : String) (data : Record) :
    ((∀ name, name ∈ bareNamesOf (Literal.encodeWithDepth v depth limit) ↔
        name ∈ keysWithin (limit + 1 - depth) v ∧ isIdentifier name = true) ∧
      ((∀ name ∈ bareNamesOf (Literal.encodeWithDepth v depth limit), IsUsable name) ↔
        ∀ key ∈ keysWithin (limit + 1 - depth) v, key ∉ reserved)) ∧
    ∀ d ∈ DataImport.directives text,
      (∀ name, name ∈ bareNamesOf (String.ofList (DataImport.block data d)) ↔
        ∃ v, DataImport.value? data d = some v ∧ (name = String.ofList d.name ∨
          name ∈ keysWithin (Literal.maxDepth + 1) v ∧ isIdentifier name = true)) ∧
      ((∀ name ∈ bareNamesOf (String.ofList (DataImport.block data d)), IsUsable name) ↔
        ∀ v, DataImport.value? data d = some v → String.ofList d.name ∉ reserved ∧
          ∀ key ∈ keysWithin (Literal.maxDepth + 1) v, key ∉ reserved) := by
  have hreserved : ∀ name ∈ reserved, isIdentifier name = true := by decide
  refine ⟨⟨fun name => mem_bareNamesOf_encode, ?_⟩, fun d hd => ?_⟩
  · simp only [mem_bareNamesOf_encode]
    constructor
    · exact fun h key hkey hr => (h key ⟨hkey, hreserved key hr⟩).free hr
    · exact fun h name ⟨hname, hidentifier⟩ => ⟨hidentifier, h name hname⟩
  · have hp := DataImport.quote_not_mem_path hd
    refine ⟨fun name => DataImport.mem_bareNamesOf_block hp, ?_⟩
    simp only [DataImport.mem_bareNamesOf_block hp]
    constructor
    · refine fun h v hv => ⟨(h _ ⟨v, hv, .inl rfl⟩).free, fun key hkey hr => ?_⟩
      exact (h key ⟨v, hv, .inr ⟨hkey, hreserved key hr⟩⟩).free hr
    · rintro h name ⟨v, hv, rfl | ⟨hkey, hidentifier⟩⟩
      · exact ⟨DataImport.isIdentifier_of_value? hv, (h v hv).1⟩
      · exact ⟨hidentifier, (h v hv).2 name hkey⟩

/-- A record with a reserved key. -/
def reservedKey : Value := .record [("set", .number (.int 1))]

/-- A record with a reserved key, under a reserved name. -/
def reservedName : Record := [("show", .record [("include", .list [])])]

/-- The directive that injects it. -/
def showImport : DataImport :=
  .ofParts [' '] [] [' '] [' '] ['s', 'h', 'o', 'w']

/-- Reserved words stand bare as a key of a literal, and as the names that a data import declares. -/
theorem reserved_names_stand_bare :
    Literal.encodeWithDepth reservedKey 0 Literal.maxDepth = "(set: 1)" ∧
      (¬∀ name ∈ bareNamesOf "(set: 1)", IsUsable name) ∧
      showImport ∈ DataImport.directives "#!import \"\" with_data: show" ∧
      String.ofList (DataImport.block reservedName showImport) =
        "#let show = (include: ())\n#let include = ()" ∧
      "show" ∈ bareNamesOf "#let show = (include: ())\n#let include = ()" ∧
      "include" ∈ bareNamesOf "#let show = (include: ())\n#let include = ()" := by
  have hencode : Literal.encodeWithDepth reservedKey 0 Literal.maxDepth = "(set: 1)" := by decide
  have hd : showImport ∈ DataImport.directives "#!import \"\" with_data: show" := by
    have hall : DataImport.directives "#!import \"\" with_data: show" = [showImport] := by
      decide +kernel
    simp [hall]
  have hblock : String.ofList (DataImport.block reservedName showImport) =
      "#let show = (include: ())\n#let include = ()" := by decide
  obtain ⟨⟨-, hkeys⟩, hblocks⟩ := bare_names_usable_unless_reserved reservedKey 0 Literal.maxDepth
    "#!import \"\" with_data: show" reservedName
  obtain ⟨hnames, -⟩ := hblocks showImport hd
  rw [hencode] at hkeys
  rw [hblock] at hnames
  refine ⟨hencode, fun h => absurd (hkeys.1 h) (by decide), hd, hblock, (hnames _).2 ?_, (hnames _).2 ?_⟩
  · exact ⟨_, rfl, .inl (by decide)⟩
  · exact ⟨_, rfl, .inr (by decide)⟩

end Galley.Typst
