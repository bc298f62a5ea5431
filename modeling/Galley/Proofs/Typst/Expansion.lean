import Galley.Proofs.Typst.DataBlock
import Galley.Proofs.Typst.FieldText
import Galley.Proofs.Typst.LineEnds

/-! # What data imports expand to

The first data import of a text is replaced by its block, and expansion goes on behind it; all other text is
kept. The block declares a record or a list as a whole and, of a record, each field whose key is an identifier,
by the text that the field has in the whole. -/

namespace Galley.Typst

namespace Literal

/-! ## Literals are written on one line -/

theorem oneLine_string (text : String) : OneLine (string text) := by
  have hescaped : OneLine (escaped text.toList) := by
    intro c hc
    obtain ⟨hn, hr, -⟩ := not_blank_of_mem_escaped hc
    simp [Import.isLineEnd, hn, hr]
  have hquote : OneLine ['"'] := oneLine_of_none _ (by decide)
  have hopen : OneLine ('"' :: escaped text.toList) := oneLine_append.2 ⟨hquote, hescaped⟩
  exact oneLine_append.2 ⟨hopen, hquote⟩

theorem oneLine_identifier {name : String} (h : isIdentifier name = true) : OneLine name.toList :=
  fun _ hc => isLineEnd_of_isIdentifierRest (isIdentifierRest_of_mem h hc)

theorem oneLine_key (name : String) : OneLine (key name) := by
  unfold key
  split
  · next h => exact oneLine_identifier h
  · exact oneLine_string name

theorem oneLine_number (n : Number) : OneLine n.text.toList := by
  intro c hc
  rcases Number.of_mem_text hc with hd | hm
  · exact isLineEnd_of_isIdentifierRest (by simp [isIdentifierRest, Char.isAlphanum, hd])
  · exact oneLine_of_none ['-', '+', '.', 'e', 'N', 'a', 'i', 'n', 'f'] rfl c hm

theorem oneLine_commaSeparated {parts : List (List Char)} (h : ∀ part ∈ parts, OneLine part) :
    OneLine (commaSeparated parts) := by
  induction parts with
  | nil => exact oneLine_of_none _ rfl
  | cons part parts ih =>
    cases parts with
    | nil => exact h part (by simp)
    | cons next parts =>
      have hcomma : OneLine [',', ' '] := oneLine_of_none _ (by decide)
      have hrest := ih fun other ho => h other (List.mem_cons_of_mem _ ho)
      exact oneLine_append.2 ⟨h part (by simp), oneLine_append.2 ⟨hcomma, hrest⟩⟩

theorem oneLine_parentheses {text close : List Char} (h : OneLine text)
    (hc : close.any Import.isLineEnd = false) : OneLine ('(' :: text ++ close) :=
  oneLine_append.2 ⟨oneLine_append.2 ⟨oneLine_of_none ['('] (by decide), h⟩, oneLine_of_none close hc⟩

mutual

theorem oneLine_value (v : Value) (depth limit : Nat) : OneLine (value depth limit v) := by
  by_cases h : limit < depth
  · rw [value_of_lt h]
    exact oneLine_of_none _ (by decide)
  cases v with
  | null => exact oneLine_of_none ['"', '"'] (by decide)
  | bool b =>
    rw [value, if_neg h]
    cases b <;> exact oneLine_of_none _ (by decide)
  | number n =>
    rw [value, if_neg h]
    exact oneLine_number n
  | string s =>
    rw [value, if_neg h]
    exact oneLine_string s
  | list xs =>
    have hitems := oneLine_items xs (depth + 1) limit
    rw [value, if_neg h]
    split
    · next part hpart =>
      exact oneLine_parentheses (hitems part (by simp [hpart])) (by decide)
    · exact oneLine_parentheses (oneLine_commaSeparated hitems) (by decide)
  | record fs =>
    rw [value, if_neg h]
    exact oneLine_parentheses (oneLine_commaSeparated (oneLine_fields fs (depth + 1) limit)) (by decide)

theorem oneLine_items (xs : List Value) (depth limit : Nat) :
    ∀ part ∈ items depth limit xs, OneLine part := by
  match xs with
  | [] => simp [items]
  | x :: xs =>
    rw [items, List.forall_mem_cons]
    exact ⟨oneLine_value x depth limit, oneLine_items xs depth limit⟩

theorem oneLine_fields (fs : List (String × Value)) (depth limit : Nat) :
    ∀ part ∈ fields depth limit fs, OneLine part := by
  match fs with
  | [] => simp [fields]
  | (name, x) :: fs =>
    have hcolon : OneLine [':', ' '] := oneLine_of_none _ (by decide)
    rw [fields, List.forall_mem_cons]
    have hvalue : OneLine (':' :: ' ' :: value depth limit x) :=
      oneLine_append.2 ⟨hcolon, oneLine_value x depth limit⟩
    exact ⟨oneLine_append.2 ⟨oneLine_key name, hvalue⟩, oneLine_fields fs depth limit⟩

end

end Literal

namespace DataImport

open Literal (fieldTexts)

/-! ## Where data imports stand -/

/-- A data import stands at the front of a text, with the rest of the text behind it. -/
def StandsBefore (d : DataImport) (text rest : List Char) : Prop :=
  ∃ lead path gap blanks name, Parts lead path gap blanks name rest ∧
    d = ofParts lead path gap blanks name ∧ text = d.text ++ rest

theorem standsBefore_iff {d : DataImport} {text rest : List Char} :
    d.StandsBefore text rest ↔ read? text = some (d, rest) := by
  constructor
  · rintro ⟨lead, path, gap, blanks, name, hparts, rfl, rfl⟩
    exact read?_of_parts hparts
  · intro h
    obtain ⟨lead, path, gap, blanks, name, hparts, hd⟩ := exists_parts_of_read? h
    exact ⟨lead, path, gap, blanks, name, hparts, hd, text_append_of_read? h⟩

/-- No data import begins in the front of a text. -/
def Free (front after : List Char) : Prop :=
  ∀ before inner, front = before ++ inner → inner ≠ [] → ∀ d rest, ¬StandsBefore d (inner ++ after) rest

/-- A text with each data import replaced by its block, from the first one on. What is put in is not looked at
again. -/
inductive Expansion (data : Record) : (text expanded : List Char) → Prop where
  | done {text : List Char} : Free text [] → Expansion data text text
  | next {d : DataImport} {front after rest expanded : List Char} : Free front after →
      d.StandsBefore after rest → Expansion data rest expanded →
      Expansion data (front ++ after) (front ++ (block data d ++ expanded))

theorem Free.tail {c : Char} {front after : List Char} (h : Free (c :: front) after) : Free front after :=
  fun before inner he => h (c :: before) inner (by rw [he, List.cons_append])

theorem Free.cons {c : Char} {front after : List Char} (h : Free front after)
    (hc : read? (c :: front ++ after) = none) : Free (c :: front) after := by
  intro before inner he hne d rest hd
  cases before with
  | nil =>
    rw [List.nil_append] at he
    rw [← he, standsBefore_iff, hc] at hd
    cases hd
  | cons _ before => exact h before inner (List.cons.inj he).2 hne d rest hd

theorem pieces_free {front after : List Char} (h : Free front after) :
    pieces (front ++ after) = front.map .char ++ pieces after := by
  induction front with
  | nil => rfl
  | cons c front ih =>
    have hc : read? (c :: front ++ after) = none := by
      rw [Option.eq_none_iff_forall_ne_some]
      rintro ⟨d, rest⟩ hd
      exact h [] (c :: front) rfl (by simp) d rest (standsBefore_iff.2 hd)
    have hpieces : pieces (c :: (front ++ after)) = .char c :: pieces (front ++ after) := pieces_cons hc
    rw [List.cons_append, hpieces, ih h.tail, List.map_cons, List.cons_append]

theorem flatMap_expand_char (data : Record) (text : List Char) :
    (text.map Piece.char).flatMap (Piece.expand data) = text := by
  induction text with
  | nil => rfl
  | cons c text ih => simp [Piece.expand, ih]

theorem Expansion.eq_pieces {data : Record} {text expanded : List Char} (h : Expansion data text expanded) :
    (pieces text).flatMap (Piece.expand data) = expanded := by
  induction h with
  | @done text hfree =>
    have hpieces := pieces_free hfree
    rw [List.append_nil, pieces_nil, List.append_nil] at hpieces
    rw [hpieces, flatMap_expand_char]
  | next hfree hd _ ih =>
    rw [pieces_free hfree, pieces_of_read? (standsBefore_iff.1 hd), List.flatMap_append, flatMap_expand_char,
      List.flatMap_cons, ih, Piece.expand]

theorem expansion_pieces (data : Record) (text : List Char) :
    Expansion data text ((pieces text).flatMap (Piece.expand data)) := by
  have hnil (after : List Char) : Free [] after := fun before inner he hne =>
    absurd (List.append_eq_nil_iff.1 he.symm).2 hne
  fun_induction pieces text with
  | case1 text d rest h ih =>
    rw [List.flatMap_cons]
    exact .next (hnil text) (standsBefore_iff.2 h) ih
  | case2 h => exact .done (hnil [])
  | case3 c rest h ih =>
    rw [List.flatMap_cons, Piece.expand, List.singleton_append]
    generalize (pieces rest).flatMap (Piece.expand data) = expanded at ih
    cases ih with
    | done hfree => exact .done (hfree.cons (by rwa [List.append_nil]))
    | next hfree hd hrest => exact .next (hfree.cons h) hd hrest

theorem expand_of_not_occursIn {text : String} (data : Record) (h : occursIn text = false) :
    expand text data = text := by
  have hkept : ∀ piece ∈ pieces text.toList, piece.expand data = piece.text := by
    intro piece hm
    cases piece with
    | char c => rfl
    | directive d =>
      have hd : d ∈ directives text := List.mem_filterMap.2 ⟨_, hm, rfl⟩
      simp only [occursIn, Bool.not_eq_false', List.isEmpty_iff] at h
      rw [h] at hd
      cases hd
  rw [expand, List.flatMap_congr hkept, flatMap_text_pieces, String.ofList_toList]

/-! ## Blocks -/

/-- The declarations for what a name is bound to. A record is declared as a whole, and then each field whose key
is an identifier, by the text that stands for its value in the literal of the whole. -/
inductive Declares (data : Record) (name : List Char) : (declared : List (List Char)) → Prop where
  | record {fields : Record} {texts : List (String × List Char)} :
      isIdentifier (String.ofList name) = true → data.get? (String.ofList name) = some (.record fields) →
      Literal.HasTexts (Literal.encode (.record fields)).toList fields texts →
      Declares data name (declaration name (Literal.encode (.record fields)).toList ::
        (texts.filter fun field => isIdentifier field.1).map fun field =>
          declaration field.1.toList field.2)
  | list {items : List Value} :
      isIdentifier (String.ofList name) = true → data.get? (String.ofList name) = some (.list items) →
      Declares data name [declaration name (Literal.encode (.list items)).toList]
  | nothing : (isIdentifier (String.ofList name) = true →
        (∀ fields, data.get? (String.ofList name) ≠ some (.record fields)) ∧
          ∀ items, data.get? (String.ofList name) ≠ some (.list items)) →
      Declares data name []

/-- The declarations that a data import is replaced by, as far as they are there. -/
def declared (data : Record) (d : DataImport) : List (List Char) :=
  match value? data d with
  | some v => declarations d.name v
  | none => []

theorem block_eq (data : Record) (d : DataImport) : block data d =
    ['\n'].intercalate (declared data d ++ if d.path.isEmpty then [] else [importLine d.path]) := rfl

theorem toList_encode (v : Value) : (Literal.encode v).toList = Literal.value 0 Literal.maxDepth v :=
  String.toList_ofList

/-- The fields of a record are declared by their texts. -/
theorem declarations_record (name : List Char) (fields : Record) : declarations name (.record fields) =
    declaration name (Literal.value 0 Literal.maxDepth (.record fields)) ::
      ((fieldTexts 1 Literal.maxDepth fields).filter fun field => isIdentifier field.1).map fun field =>
        declaration field.1.toList field.2 := by
  rw [declarations, fieldTexts, List.filter_map, List.map_map]
  rfl

theorem declares_declared (data : Record) (d : DataImport) : Declares data d.name (declared data d) := by
  unfold declared value?
  by_cases hname : isIdentifier (String.ofList d.name) = true
  · dsimp only
    rw [if_pos hname]
    split
    · next v hv =>
      split at hv
      · next fields hget =>
        obtain rfl := Option.some.inj hv
        have htexts := Literal.hasTexts_record fields
        rw [← toList_encode] at htexts
        rw [declarations_record, ← toList_encode]
        exact .record hname hget htexts
      · next items hget =>
        obtain rfl := Option.some.inj hv
        rw [declarations, ← toList_encode]
        · exact .list hname hget
        · intro fields he
          cases he
      · cases hv
    · next hv =>
      refine .nothing fun _ => ⟨fun fields hget => ?_, fun items hget => ?_⟩
      · simp [hget] at hv
      · simp [hget] at hv
  · dsimp only
    rw [if_neg hname]
    exact .nothing fun h => absurd h hname

theorem oneLine_declaration {name : String} (h : isIdentifier name = true) (v : Value) (depth limit : Nat) :
    OneLine (declaration name.toList (Literal.value depth limit v)) := by
  have hlet : OneLine ("#let ".toList ++ name.toList) :=
    oneLine_append.2 ⟨oneLine_of_none _ (by decide), Literal.oneLine_identifier h⟩
  have hequals : OneLine " = ".toList := oneLine_of_none _ (by decide)
  exact oneLine_append.2 ⟨oneLine_append.2 ⟨hlet, hequals⟩, Literal.oneLine_value v depth limit⟩

theorem oneLine_declarations {name : String} (h : isIdentifier name = true) (v : Value) :
    ∀ line ∈ declarations name.toList v, OneLine line := by
  have hwhole := oneLine_declaration h v 0 Literal.maxDepth
  cases v with
  | record fields =>
    intro line hline
    rcases List.mem_cons.1 hline with rfl | hline
    · exact hwhole
    · obtain ⟨field, hfield, rfl⟩ := List.mem_map.1 hline
      exact oneLine_declaration (List.mem_filter.1 hfield).2 field.2 1 Literal.maxDepth
  | null | bool | number | string | list => exact List.forall_mem_singleton.2 hwhole

theorem isIdentifier_of_value? {data : Record} {d : DataImport} {v : Value} (h : value? data d = some v) :
    isIdentifier (String.ofList d.name) = true := by
  unfold value? at h
  dsimp only at h
  split at h
  · assumption
  · cases h

theorem oneLine_declared (data : Record) (d : DataImport) : ∀ line ∈ declared data d, OneLine line := by
  unfold declared
  split
  · next v hv =>
    have hlines := oneLine_declarations (isIdentifier_of_value? hv) v
    rwa [String.toList_ofList] at hlines
  · simp

/-- A text expands in one way, to what is put out. It is kept when no data import occurs in it; else each is
replaced by the declarations for its name, none of them on more than one line, and by an import of its path if
there is one. -/
theorem expands_exactly (data : Record) :
    (∀ (text : String) (expanded : List Char),
      Expansion data text.toList expanded ↔ expanded = (expand text data).toList) ∧
    (∀ text, occursIn text = false → expand text data = text) ∧
    ∀ d : DataImport, ∃ declared, Declares data d.name declared ∧ (∀ line ∈ declared, OneLine line) ∧
      block data d = ['\n'].intercalate (declared ++ if d.path.isEmpty then [] else [importLine d.path]) := by
  refine ⟨fun text expanded => ?_, fun text => expand_of_not_occursIn data, fun d => ?_⟩
  · rw [expand, String.toList_ofList]
    constructor
    · intro h
      exact h.eq_pieces.symm
    · rintro rfl
      exact expansion_pieces data text.toList
  · exact ⟨declared data d, declares_declared data d, oneLine_declared data d, block_eq data d⟩

/-- A data import without a name is none. -/
theorem expands_exactly_unnamed : occursIn "#!import \"a\" with_data: " = false ∧
    expand "#!import \"a\" with_data: " [("a", .list [])] = "#!import \"a\" with_data: " := by
  have h : occursIn "#!import \"a\" with_data: " = false := by decide +kernel
  exact ⟨h, (expands_exactly _).2.1 _ h⟩

-- A field whose key is no identifier stands in the whole only.
example : expand "-#!import \"A\" with_data: c-" [("c", .record [("k", .bool true), ("0", .null)])] =
    "-#let c = (k: true, \"0\": \"\")\n#let k = true\n#import \"A\" : *-" := by decide +kernel

end DataImport

end Galley.Typst
