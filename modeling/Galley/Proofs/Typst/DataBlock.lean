import Galley.Proofs.Typst.DirectiveKinds

/-! # Injected data and directives

The block that replaces a data import is laid out code with the import in its tail. So injected data
is inert, to both kinds of directives, exactly when no two of its strings that follow each other
spell one. -/

namespace Galley.Typst.DataImport

open Literal (strings Quiet Laid Lays)
open Text (isSpaceOrTab)

/-! ## The declarations -/

/-- The contents of the strings in the declarations of a value. -/
def declaredStrings : Value → List (List Char)
  | .record fields =>
    strings 0 Literal.maxDepth (.record fields) ++
      (fields.filter fun field => isIdentifier field.1).flatMap fun field =>
        strings 1 Literal.maxDepth field.2
  | v => strings 0 Literal.maxDepth v

theorem quiet_declaration {name : String} (h : isIdentifier name = true) :
    Quiet ("#let ".toList ++ name.toList ++ " = ".toList) := by
  have hlet : Quiet "#let ".toList := by
    refine ⟨by decide, fun front rest he => ?_⟩
    cases front with
    | nil =>
      rw [← (List.cons.inj he).2]
      rfl
    | cons c front =>
      have hm : '#' ∈ ['l', 'e', 't', ' '] := by
        rw [show ['l', 'e', 't', ' '] = front ++ '#' :: rest from (List.cons.inj he).2]
        simp
      exact absurd hm (by decide)
  have hequals : Quiet " = ".toList := Literal.quiet_of_not_mem (by decide) (by decide)
  exact (hlet.append (Literal.quiet_identifier h)).append hequals

theorem lays_declaration {name : String} (h : isIdentifier name = true) (v : Value)
    (depth limit : Nat) : Lays (strings depth limit v)
      (declaration name.toList (Literal.value depth limit v)) :=
  (Literal.lays_value v depth limit).after_code (quiet_declaration h)

/-- Lines that lay their contents do so together. -/
theorem lays_intercalate {parts : List (List (List Char) × List Char)}
    (h : ∀ part ∈ parts, Lays part.1 part.2) :
    Lays (parts.flatMap Prod.fst) (['\n'].intercalate (parts.map Prod.snd)) := by
  induction parts with
  | nil => exact Literal.lays_nil
  | cons part parts ih =>
    have hpart := h part (by simp)
    have hrest := ih fun other ho => h other (List.mem_cons_of_mem _ ho)
    cases parts with
    | nil => simpa using hpart
    | cons next parts =>
      have hbreak : Quiet ['\n'] := Literal.quiet_of_not_mem (by decide) (by decide)
      have := hpart.append (hrest.after_code hbreak) (by simp)
      rw [List.map_cons, List.map_cons, List.intercalate_cons_cons, List.append_assoc]
      exact this

theorem lays_declarations {name : String} (h : isIdentifier name = true) (v : Value) :
    Lays (declaredStrings v) (['\n'].intercalate (declarations name.toList v)) := by
  have hone (v : Value) : Lays (strings 0 Literal.maxDepth v)
      (['\n'].intercalate [declaration name.toList (Literal.value 0 Literal.maxDepth v)]) := by
    simpa using lays_declaration h v 0 Literal.maxDepth
  cases v with
  | record fields =>
    let own (field : String × Value) : List (List Char) × List Char :=
      (strings 1 Literal.maxDepth field.2,
        declaration field.1.toList (Literal.value 1 Literal.maxDepth field.2))
    have hall : ∀ part ∈ (strings 0 Literal.maxDepth (.record fields),
        declaration name.toList (Literal.value 0 Literal.maxDepth (.record fields))) ::
        (fields.filter fun field => isIdentifier field.1).map own, Lays part.1 part.2 := by
      intro part hpart
      rcases List.mem_cons.1 hpart with rfl | hpart
      · exact lays_declaration h _ 0 Literal.maxDepth
      · obtain ⟨field, hfield, rfl⟩ := List.mem_map.1 hpart
        exact lays_declaration (List.mem_filter.1 hfield).2 field.2 1 Literal.maxDepth
    have := lays_intercalate hall
    simpa [declaredStrings, declarations, own, List.flatMap_map, Function.comp_def] using this
  | null => exact hone _
  | bool b => exact hone _
  | number n => exact hone _
  | string s => exact hone _
  | list xs => exact hone _

/-! ## The import behind the declarations -/

/-- The import at the end of a block. -/
def importLine (path : List Char) : List Char :=
  "#import \"".toList ++ path ++ "\" : *".toList

/-- What stands behind the declarations of a block. -/
def tail (path : List Char) : List Char := if path.isEmpty then [] else importLine path

/-- The import that a block should have, if there is a path: its path and its bindings. -/
def emitted (path : List Char) : List (List Char × List Char) :=
  if path.isEmpty then [] else [(path, ['*'])]

theorem importLine_eq (path : List Char) : importLine path =
    ['#', 'i', 'm', 'p', 'o', 'r', 't', ' '] ++ '"' :: (path ++ '"' :: [' ', ':', ' ', '*']) := by
  show ['#', 'i', 'm', 'p', 'o', 'r', 't', ' ', '"'] ++ path ++ ['"', ' ', ':', ' ', '*'] = _
  simp

theorem inert_tail {path : List Char} (hp : '"' ∉ path)
    (hh : ∀ c ∈ path.head?, isSpaceOrTab c = false ∧ c ≠ ':') : Pattern.Inert (tail path) := by
  intro front after hfront he
  unfold tail at he
  split at he
  · simp at he
  next hne =>
  rw [importLine_eq] at he
  obtain ⟨-, rfl⟩ := Text.append_cons_inj (by decide) hfront he
  intro c hc
  refine hh c ?_
  cases path with
  | nil => exact absurd rfl hne
  | cons x path => exact hc

theorem found_import_tail {path : List Char} (hp : '"' ∉ path) :
    (Import.pattern.found (tail path)).map (fun d => (d.path, d.bindings)) = emitted path := by
  have hnil : Import.pattern.found [] = [] := congrArg _ Import.pieces_nil
  unfold tail emitted
  split
  · rw [hnil]
    rfl
  next hne =>
  have hparts : Import.Parts [' '] path [' '] [' ', '*'] [] := by
    refine ⟨by simp, blank_space, by simpa using hne, hp, blank_space, by simp,
      by simp [Import.isLineEnd], ?_⟩
    exact Text.Stops.nil _
  have ht : importLine path = (Import.ofParts [' '] path [' '] [' ', '*']).text ++ [] := by
    rw [Import.text_ofParts, importLine_eq, List.append_nil]
    rfl
  have hr : Import.pattern.read? (importLine path) =
      some (Import.ofParts [' '] path [' '] [' ', '*'], []) := by
    rw [ht]
    exact Import.read?_of_parts hparts
  rw [Import.pattern.found_of_read? hr, hnil]
  rfl

theorem found_dataImport_tail {path : List Char} (hp : '"' ∉ path) :
    pattern.found (tail path) = [] := by
  have hnil : pattern.found [] = [] := congrArg _ pieces_nil
  unfold tail
  split
  · exact hnil
  rw [← List.append_nil (importLine path), pattern.found_append, hnil]
  intro x y he _
  rw [← Option.not_isSome_iff_eq_none, List.append_nil, pattern.read?_iff]
  rintro ⟨lead, inner, after, -, -, -, rfl⟩
  -- no exclamation mark stands before the first quote, and the second quote is the last
  rw [importLine_eq] at he
  have hcut : ['#', 'i', 'm', 'p', 'o', 'r', 't', ' '] ++
      '"' :: (path ++ '"' :: [' ', ':', ' ', '*']) =
        (x ++ '#' :: (pattern.key ++ lead)) ++ '"' :: (inner ++ '"' :: after) := by
    rw [he]
    simp
  rcases Text.append_cons_cases (by decide) hcut with ⟨hx, -⟩ | ⟨mid, -, hmid⟩
  · have hm : '!' ∈ x ++ '#' :: (pattern.key ++ lead) := by simp [pattern]
    rw [hx] at hm
    exact absurd hm (by decide)
  · rcases Text.append_cons_cases hp hmid with ⟨-, hend⟩ | ⟨mid', -, hend⟩
    · have hm : '"' ∈ [' ', ':', ' ', '*'] := by simp [hend]
      exact absurd hm (by decide)
    · have hm : '"' ∈ [' ', ':', ' ', '*'] := by simp [hend]
      exact absurd hm (by decide)

theorem intercalate_append_singleton {lines : List (List Char)} (h : lines ≠ [])
    (last : List Char) : ['\n'].intercalate (lines ++ [last]) =
      ['\n'].intercalate lines ++ '\n' :: last := by
  induction lines with
  | nil => exact absurd rfl h
  | cons line lines ih =>
    cases lines with
    | nil => simp
    | cons next lines =>
      have := ih (by simp)
      rw [List.cons_append, List.cons_append, List.intercalate_cons_cons,
        List.intercalate_cons_cons, ← List.cons_append, this]
      simp

theorem declarations_ne_nil (name : List Char) (v : Value) : declarations name v ≠ [] := by
  cases v <;> simp [declarations]

/-- The block of a directive that injects a value. -/
theorem laid_block {data : Record} {d : DataImport} {name : String} {v : Value}
    (hname : isIdentifier name = true) (hd : d.name = name.toList) (hv : value? data d = some v) :
    Laid (tail d.path) (declaredStrings v) (block data d) := by
  have hlays := lays_declarations hname v
  have hhead : ∀ rest, ('\n' :: rest).head? ≠ some '"' := by
    intro rest h
    exact absurd (Option.some.inj h) (by decide)
  unfold block lines tail
  rw [hv, hd]
  by_cases hp : d.path.isEmpty = true
  · rw [if_pos hp, if_pos hp, List.append_nil]
    have hnone : Laid [] [] ([] ++ []) :=
      Laid.code (Literal.quiet_of_not_mem List.not_mem_nil List.not_mem_nil)
    have := hlays _ _ _ hnone (by simp)
    simpa using this
  · rw [if_neg hp, if_neg hp]
    have hbreak : Quiet ['\n'] := Literal.quiet_of_not_mem (by decide) (by decide)
    have hline : Laid (importLine d.path) [] ('\n' :: importLine d.path) := Laid.code hbreak
    have := hlays _ _ _ hline (hhead _)
    rw [List.append_nil] at this
    dsimp only
    rw [intercalate_append_singleton (declarations_ne_nil _ _)]
    exact this

/-! ## What is found in the block -/

variable {path text : List Char} {contents : List (List Char)}

/-- The import behind laid out strings is the only one unless two of them spell one, for an import
that strings spell has a quote in its bindings. -/
theorem imports_laid_iff (hp : '"' ∉ path)
    (hh : ∀ c ∈ path.head?, isSpaceOrTab c = false ∧ c ≠ ':') (h : Laid (tail path) contents text) :
    (Import.pattern.found text).map (fun d => (d.path, d.bindings)) = emitted path ↔
      contents.IsChain fun a b => ¬Import.pattern.Spells a b := by
  rcases Import.pattern.found_laid (inert_tail hp hh) h with ⟨hchain, hfound⟩ | ⟨hchain, hspelled⟩
  · rw [hfound]
    exact iff_of_true (found_import_tail hp) hchain
  · obtain ⟨d, rest, lead, inner, content, after, hfound, hread, hlead, hinner, -⟩ := hspelled
    have hquote := Import.quote_mem_bindings hlead hinner hread
    refine iff_of_false (fun he => ?_) hchain
    rw [hfound, List.map_cons] at he
    unfold emitted at he
    split at he
    · cases he
    · have hbindings : d.bindings = ['*'] := congrArg Prod.snd (List.cons.inj he).1
      rw [hbindings] at hquote
      exact absurd hquote (by decide)

theorem dataImports_laid_iff (hp : '"' ∉ path)
    (hh : ∀ c ∈ path.head?, isSpaceOrTab c = false ∧ c ≠ ':') (h : Laid (tail path) contents text) :
    pattern.found text = [] ↔ contents.IsChain fun a b => ¬pattern.Spells a b := by
  rcases pattern.found_laid (inert_tail hp hh) h with ⟨hchain, hfound⟩ | ⟨hchain, hspelled⟩
  · rw [hfound]
    exact iff_of_true (found_dataImport_tail hp) hchain
  · obtain ⟨d, rest, -, -, -, -, hfound, -⟩ := hspelled
    rw [hfound]
    exact iff_of_false (by simp) hchain

/-- A data import as it is written. -/
def source (path name : String) : String := "#!import \"" ++ path ++ "\" with_data: " ++ name

/-- A data import is read as it is written, whether its name is an identifier or not. -/
theorem expand_word {path name : String} (data : Record) (hp : '"' ∉ path.toList)
    (hne : name.toList ≠ []) (hname : ∀ c ∈ name.toList, isIdentifierRest c = true) :
    ∃ d, d.path = path.toList ∧ d.name = name.toList ∧
      expand (source path name) data = String.ofList (block data d) := by
  have hparts : Parts [' '] path.toList [' '] [' '] name.toList [] := by
    refine ⟨by simp, blank_space, hp, by simp, blank_space, blank_space, hne, hname, Text.Stops.nil _⟩
  have htext : (source path name).toList =
      (ofParts [' '] path.toList [' '] [' '] name.toList).text ++ [] := by
    simp only [source, String.toList_append, text_ofParts]
    show (['#', '!', 'i', 'm', 'p', 'o', 'r', 't', ' ', '"'] ++ path.toList ++
      ['"', ' ', 'w', 'i', 't', 'h', '_', 'd', 'a', 't', 'a', ':', ' ']) ++ name.toList = _
    simp [keyword, marker]
  refine ⟨ofParts [' '] path.toList [' '] [' '] name.toList, rfl, rfl, ?_⟩
  unfold expand
  rw [htext, pieces_of_read? (read?_of_parts hparts), pieces_nil]
  simp [Piece.expand]

theorem expand_source {path name : String} (data : Record) (hp : '"' ∉ path.toList)
    (hname : isIdentifier name = true) :
    ∃ d, d.path = path.toList ∧ d.name = name.toList ∧
      expand (source path name) data = String.ofList (block data d) := by
  obtain ⟨c, rest, hc, -⟩ := isIdentifier_iff.1 hname
  exact expand_word data hp (by simp [hc]) fun x hx => isIdentifierRest_of_mem hname hx

/-- The text for a data import has no import but its own exactly when no two strings in a row spell
one, and no data import exactly when no two strings in a row spell one. -/
theorem expand_inert_iff {data : Record} {path name : String} {v : Value}
    (hname : isIdentifier name = true) (hdata : data.get? name = some v)
    (hv : (∃ fields, v = .record fields) ∨ ∃ items, v = .list items)
    (hquote : '"' ∉ path.toList)
    (hhead : ∀ c ∈ path.toList.head?, isSpaceOrTab c = false ∧ c ≠ ':') :
    ((Import.directives (expand (source path name) data)).map (fun d => (d.path, d.bindings)) =
        emitted path.toList ↔
      (declaredStrings v).IsChain fun a b => ¬Import.pattern.Spells a b) ∧
    (occursIn (expand (source path name) data) = false ↔
      (declaredStrings v).IsChain fun a b => ¬pattern.Spells a b) := by
  obtain ⟨d, hpath, hdname, hexpand⟩ := expand_source data hquote hname
  have hvalue : value? data d = some v := by
    unfold value?
    rw [hdname, String.ofList_toList, if_pos hname, hdata]
    rcases hv with ⟨fields, rfl⟩ | ⟨items, rfl⟩ <;> rfl
  have hlaid := laid_block hname hdname hvalue
  rw [hpath] at hlaid
  have himports : Import.directives (expand (source path name) data) =
      Import.pattern.found (block data d) := by
    rw [hexpand]
    unfold Import.directives
    rw [String.toList_ofList]
    rfl
  have hdirectives : directives (expand (source path name) data) =
      pattern.found (block data d) := by
    rw [hexpand]
    unfold directives
    rw [String.toList_ofList]
    rfl
  refine ⟨?_, ?_⟩
  · rw [himports]
    exact imports_laid_iff hquote hhead hlaid
  · rw [← dataImports_laid_iff hquote hhead hlaid, occursIn, hdirectives]
    simp

/-- One string is inert, but two strings in a row can spell an import, and two can spell a data
import. -/
theorem expand_inert_iff_list :
    (Import.directives (expand (source "b.typ" "a") [("a", .list [.string "x"])])).map
        (fun d => (d.path, d.bindings)) = [("b.typ".toList, ['*'])] ∧
      (Import.directives (expand (source "" "a")
        [("a", .list [.string "#import ", .string ": x"])])).map
          (fun d => (d.path, d.bindings)) ≠ [] ∧
      occursIn (expand (source "" "a")
        [("a", .list [.string "#!import ", .string " with_data: x"])]) ≠ false := by
  refine ⟨?_, ?_, ?_⟩
  · exact (expand_inert_iff (by rfl) (by rfl) (.inr ⟨_, rfl⟩) (by simp)
      (by simp [isSpaceOrTab])).1.2
      (List.isChain_singleton _)
  · intro h
    have hiff := @expand_inert_iff [("a", .list [.string "#import ", .string ": x"])] "" "a" _
      (by rfl) (by rfl) (.inr ⟨_, rfl⟩) (by simp) (by simp)
    have hspells := (List.isChain_cons_cons.1 (hiff.1.1 h)).1
    exact hspells ⟨⟨[], [' '], rfl, by simp, by simp⟩, [], [' ', 'x'], rfl, by simp⟩
  · intro h
    have hiff := @expand_inert_iff
      [("a", .list [.string "#!import ", .string " with_data: x"])] "" "a" _
      (by rfl) (by rfl) (.inr ⟨_, rfl⟩) (by simp) (by simp)
    have hspells := (List.isChain_cons_cons.1 (hiff.2.1 h)).1
    exact hspells ⟨⟨[], [' '], rfl, by simp, by simp⟩, [' '], [' '], 'x', [], rfl, by simp, by simp,
      by simp, by decide⟩

end Galley.Typst.DataImport
