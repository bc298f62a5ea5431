import Galley.Proofs.Typst.Expansion

/-! # What injected names are bound to

The declarations of a record are evaluated one after another, and a later declaration of a name takes the
place of an earlier one. So each key is bound to its own value, and the name of the record is bound to the
whole unless it is one of the keys. -/

namespace Galley.Typst.DataImport

open Literal (encode encodeWithDepth maxDepth)

/-! ## Scopes -/

/-- The literals that names are bound to. -/
abbrev Scope := String → Option String

/-- The name and the literal of a declaration. -/
def readDeclaration? (line : List Char) : Option (String × String) :=
  match Text.dropStart? "#let ".toList line with
  | none => none
  | some rest =>
    let name := String.ofList (rest.takeWhile isIdentifierRest)
    match Text.dropStart? " = ".toList (rest.dropWhile isIdentifierRest) with
    | none => none
    | some literal => if isIdentifier name then some (name, String.ofList literal) else none

/-- A declaration shadows the earlier ones of its name. -/
def Scope.bind (scope : Scope) (declaration : String × String) : Scope :=
  Function.update scope declaration.1 (some declaration.2)

/-- The scope after the declarations of a text, evaluated line by line. -/
def scopeOf (text : String) : Scope :=
  ((Typst.lines text).filterMap fun line => readDeclaration? line.toList).foldl Scope.bind fun _ => none

theorem foldl_bind_of_not_mem {declarations : List (String × String)} {name : String}
    (h : name ∉ declarations.map Prod.fst) (scope : Scope) :
    declarations.foldl Scope.bind scope name = scope name := by
  induction declarations generalizing scope with
  | nil => rfl
  | cons first rest ih =>
    obtain ⟨hfirst, hrest⟩ := not_or.1 (mt List.mem_cons.2 h)
    rw [List.foldl_cons, ih hrest, Scope.bind, Function.update_of_ne hfirst]

/-- Of declarations with different names, each is in force at the end. -/
theorem foldl_bind_of_mem {declarations : List (String × String)} {name literal : String}
    (h : (declarations.map Prod.fst).Nodup) (hm : (name, literal) ∈ declarations) (scope : Scope) :
    declarations.foldl Scope.bind scope name = some literal := by
  induction declarations generalizing scope with
  | nil => cases hm
  | cons first rest ih =>
    rw [List.map_cons, List.nodup_cons] at h
    rw [List.foldl_cons]
    rcases List.mem_cons.1 hm with rfl | hm
    · rw [foldl_bind_of_not_mem h.1, Scope.bind, Function.update_self]
    · exact ih h.2 hm _

theorem readDeclaration?_declaration {name : String} (h : isIdentifier name = true) (literal : List Char) :
    readDeclaration? (declaration name.toList literal) = some (name, String.ofList literal) := by
  have hstops : Text.Stops isIdentifierRest (" = ".toList ++ literal) := Text.stops_cons.2 (by decide)
  have hall : ∀ c ∈ name.toList, isIdentifierRest c = true := fun _ => isIdentifierRest_of_mem h
  have hlet : Text.dropStart? "#let ".toList (declaration name.toList literal) =
      some (name.toList ++ (" = ".toList ++ literal)) := by
    rw [Text.dropStart?_eq_some_iff]
    show "#let ".toList ++ name.toList ++ " = ".toList ++ literal = _
    simp only [List.append_assoc]
  have hequals : Text.dropStart? " = ".toList (" = ".toList ++ literal) = some literal :=
    Text.dropStart?_eq_some_iff.2 rfl
  rw [readDeclaration?, hlet]
  simp only [Text.takeWhile_append_of_stops hall hstops, Text.dropWhile_append_of_stops hall hstops, hequals,
    String.ofList_toList, h, if_true]

/-- Lines that are joined are the lines of the text. -/
theorem splitOnChar_intercalate {parts : List (List Char)} (hne : parts ≠ [])
    (h : ∀ part ∈ parts, OneLine part) :
    Text.splitOnChar Import.isLineEnd (['\n'].intercalate parts) = parts := by
  induction parts with
  | nil => exact absurd rfl hne
  | cons part rest ih =>
    have hpart := h part (by simp)
    cases rest with
    | nil => simpa using Text.splitOnChar_eq_singleton hpart
    | cons next rest =>
      have hrest := ih (by simp) fun other ho => h other (List.mem_cons_of_mem _ ho)
      rw [List.intercalate_cons_cons, List.append_assoc, List.singleton_append,
        Text.splitOnChar_append _ hpart (by decide), hrest]

theorem scopeOf_intercalate {parts : List (List Char)} (hne : parts ≠ []) (h : ∀ part ∈ parts, OneLine part) :
    scopeOf (String.ofList (['\n'].intercalate parts)) =
      (parts.filterMap readDeclaration?).foldl Scope.bind fun _ => none := by
  have hlines : Typst.lines (String.ofList (['\n'].intercalate parts)) = parts.map String.ofList := by
    rw [Typst.lines, String.toList_ofList, splitOnChar_intercalate hne h]
  rw [scopeOf, hlines, List.filterMap_map]
  simp only [Function.comp_def, String.toList_ofList]

/-! ## Injected records -/

variable {data fields : Record} {name : String}

/-- The declarations of the fields of a record as they are evaluated. -/
def fieldBindings (fields : Record) : List (String × String) :=
  (fields.filter fun field => isIdentifier field.1).map fun field =>
    (field.1, encodeWithDepth field.2 1 maxDepth)

theorem map_fst_fieldBindings (fields : Record) : (fieldBindings fields).map Prod.fst =
    (fields.filter fun field => isIdentifier field.1).map Prod.fst := by
  rw [fieldBindings, List.map_map]
  rfl

theorem nodup_fieldBindings (h : fields.keys.Nodup) : ((fieldBindings fields).map Prod.fst).Nodup := by
  rw [map_fst_fieldBindings]
  exact h.sublist (List.filter_sublist.map Prod.fst)

theorem mem_names_fieldBindings {key : String} : key ∈ (fieldBindings fields).map Prod.fst ↔
    key ∈ fields.keys ∧ isIdentifier key = true := by
  rw [map_fst_fieldBindings, Record.keys, List.mem_map, List.mem_map]
  constructor
  · rintro ⟨field, hm, rfl⟩
    obtain ⟨hm, hi⟩ := List.mem_filter.1 hm
    exact ⟨⟨field, hm, rfl⟩, hi⟩
  · rintro ⟨⟨field, hm, rfl⟩, hi⟩
    exact ⟨field, List.mem_filter.2 ⟨hm, hi⟩, rfl⟩

theorem filterMap_declarations (h : isIdentifier name = true) (fields : Record) :
    (declarations name.toList (.record fields)).filterMap readDeclaration? =
      (name, encode (.record fields)) :: fieldBindings fields := by
  have hfields : ∀ field ∈ fields.filter fun field => isIdentifier field.1,
      readDeclaration? (declaration field.1.toList (Literal.value 1 maxDepth field.2)) =
        some (field.1, encodeWithDepth field.2 1 maxDepth) := fun field hm =>
    readDeclaration?_declaration (List.mem_filter.1 hm).2 _
  rw [declarations, List.filterMap_cons_some (readDeclaration?_declaration h _), List.filterMap_map]
  exact congrArg _ (List.filterMap_eq_map_iff_forall_eq_some.2 hfields)

/-- What a record leaves in scope when nothing else is imported with it. -/
theorem scopeOf_expand (hget : data.get? name = some (.record fields)) (hne : name.toList ≠ [])
    (hname : ∀ c ∈ name.toList, isIdentifierRest c = true) :
    scopeOf (expand (source "" name) data) =
      if isIdentifier name then
        (fieldBindings fields).foldl Scope.bind (Scope.bind (fun _ => none) (name, encode (.record fields)))
      else fun _ => none := by
  obtain ⟨d, hpath, hd, hexpand⟩ := @expand_word "" name data (by simp) hne hname
  have hdeclared : declared data d =
      if isIdentifier name then declarations name.toList (.record fields) else [] := by
    unfold declared value?
    dsimp only
    rw [hd, String.ofList_toList, hget]
    cases isIdentifier name <;> rfl
  rw [hexpand, block_eq, hpath, hdeclared]
  split
  · next h =>
    simp only [String.toList_empty, List.isEmpty_nil, if_true, List.append_nil]
    rw [scopeOf_intercalate (declarations_ne_nil _ _) (oneLine_declarations h _), filterMap_declarations h,
      List.foldl_cons]
  · rfl

theorem length_le_commaSeparated {parts : List (List Char)} {part : List Char} (h : part ∈ parts) :
    part.length ≤ (Literal.commaSeparated parts).length := by
  induction parts with
  | nil => cases h
  | cons first rest ih =>
    cases rest with
    | nil =>
      obtain rfl := List.mem_singleton.1 h
      exact Nat.le_refl _
    | cons next rest =>
      rw [Literal.commaSeparated, List.length_append, List.length_cons, List.length_cons]
      · rcases List.mem_cons.1 h with rfl | h
        · omega
        · have := ih h
          omega
      · simp

/-- The literal of a record is longer than what stands in it. -/
theorem encode_ne_of_mem {key : String} {v : Value} (h : (key, v) ∈ fields) :
    encodeWithDepth v 1 maxDepth ≠ encode (.record fields) := by
  have hpart : Literal.key key ++ ':' :: ' ' :: Literal.value 1 maxDepth v ∈
      Literal.fields 1 maxDepth fields := by
    rw [Literal.fields_eq_map]
    exact List.mem_map.2 ⟨(key, _), List.mem_map_of_mem h, rfl⟩
  have hlength := length_le_commaSeparated hpart
  intro he
  have hvalue : Literal.value 1 maxDepth v = Literal.value 0 maxDepth (.record fields) :=
    String.ofList_injective he
  rw [hvalue, Literal.value, if_neg (by decide)] at hlength
  simp at hlength
  omega

/-- Where a record is injected under a name that a directive can hold, each of its keys that is an identifier is
bound to its own value as it stands in the whole, and the name is bound to the whole exactly when it is none of
the keys. Nothing is bound when the name is no identifier, and nothing else is. -/
theorem injected_names (hget : data.get? name = some (.record fields)) (hkeys : fields.keys.Nodup)
    (hne : name.toList ≠ []) (hname : ∀ c ∈ name.toList, isIdentifierRest c = true) :
    (isIdentifier name = false → ∀ key, scopeOf (expand (source "" name) data) key = none) ∧
    (isIdentifier name = true →
      (scopeOf (expand (source "" name) data) name = some (encode (.record fields)) ↔ name ∉ fields.keys) ∧
      (∀ key v, (key, v) ∈ fields → isIdentifier key = true →
        scopeOf (expand (source "" name) data) key = some (encodeWithDepth v 1 maxDepth)) ∧
      ∀ key, key ≠ name → (key ∉ fields.keys ∨ isIdentifier key = false) →
        scopeOf (expand (source "" name) data) key = none) := by
  rw [scopeOf_expand hget hne hname]
  refine ⟨fun hi key => by rw [if_neg (by simp [hi])], fun hi => ?_⟩
  rw [if_pos hi]
  have hown : ∀ key v, (key, v) ∈ fields → isIdentifier key = true →
      (fieldBindings fields).foldl Scope.bind (Scope.bind (fun _ => none) (name, encode (.record fields))) key =
        some (encodeWithDepth v 1 maxDepth) := fun key v hm hk =>
    foldl_bind_of_mem (nodup_fieldBindings hkeys)
      (List.mem_map.2 ⟨(key, v), List.mem_filter.2 ⟨hm, hk⟩, rfl⟩) _
  refine ⟨⟨?_, fun hnot => ?_⟩, hown, fun key hkey hnot => ?_⟩
  · intro hwhole hm
    obtain ⟨⟨_, v⟩, hv, rfl⟩ := List.mem_map.1 hm
    rw [hown _ v hv hi] at hwhole
    exact encode_ne_of_mem hv (Option.some.inj hwhole)
  · rw [foldl_bind_of_not_mem fun hm => hnot (mem_names_fieldBindings.1 hm).1, Scope.bind, Function.update_self]
  · have hfree : key ∉ (fieldBindings fields).map Prod.fst := fun hm =>
      hnot.elim (fun hk => hk (mem_names_fieldBindings.1 hm).1) fun hk => by
        rw [(mem_names_fieldBindings.1 hm).2] at hk
        cases hk
    rw [foldl_bind_of_not_mem hfree, Scope.bind, Function.update_of_ne hkey]

/-- A record that has its own name among its keys. -/
def ownKey : Record := [("a", .record [("a", .number (.int 1)), ("b", .number (.int 2))])]

/-- The name stands for the field, and the whole is out of reach. -/
theorem injected_names_ownKey :
    scopeOf (expand (source "" "a") ownKey) "a" ≠
        some (encode (.record [("a", .number (.int 1)), ("b", .number (.int 2))])) ∧
      scopeOf (expand (source "" "a") ownKey) "a" = some "1" ∧
      scopeOf (expand (source "" "a") ownKey) "b" = some "2" := by
  have ha : isIdentifier "a" = true := by decide
  have hnames := (@injected_names ownKey [("a", .number (.int 1)), ("b", .number (.int 2))] "a" rfl (by decide)
    (by decide) fun _ => isIdentifierRest_of_mem ha).2 ha
  refine ⟨fun h => hnames.1.1 h (by decide), ?_, ?_⟩
  · exact hnames.2.1 "a" (.number (.int 1)) (by simp) (by decide)
  · exact hnames.2.1 "b" (.number (.int 2)) (by simp) (by decide)

end Galley.Typst.DataImport
