import Galley.Proofs.Path.Location
import Galley.Proofs.Typst.DirectiveKinds
import Galley.Proofs.Typst.Outside

/-! # Directives and the ends of lines

Blanks, bindings and names stop at the end of a line, so a quoted path is the only part of a
directive that can run on over one. As long as no path does, the directives of a text are those of
its lines, one line after another. -/

namespace Galley.Typst

open Import (isLineEnd)
open Text (isSpaceOrTab Bytes)

/-- No character ends a line. -/
def OneLine (text : List Char) : Prop := ∀ c ∈ text, isLineEnd c = false

/-- The lines of a text, without the characters that end them. -/
def lines (text : String) : List String :=
  (Text.splitOnChar isLineEnd text.toList).map String.ofList

theorem isLineEnd_of_blank {c : Char} (h : isSpaceOrTab c = true) : isLineEnd c = false := by
  simp only [isSpaceOrTab, Bool.or_eq_true, beq_iff_eq] at h
  rcases h with rfl | rfl <;> decide

theorem isLineEnd_of_isIdentifierRest {c : Char} (h : isIdentifierRest c = true) :
    isLineEnd c = false := by
  rw [← Bool.not_eq_true]
  intro he
  simp only [isLineEnd, Bool.or_eq_true, beq_iff_eq] at he
  rcases he with rfl | rfl <;> exact absurd h (by decide)

/-- A text without line ends in front of one stands before it as a whole. -/
theorem OneLine.exists_append {front rest text more : List Char} {e : Char}
    (hf : OneLine front) (he : isLineEnd e = true) (h : front ++ rest = text ++ e :: more) :
    ∃ text', text = front ++ text' ∧ rest = text' ++ e :: more :=
  Text.exists_append_of_not_mem (fun hm => by simp [hf e hm] at he) h

theorem oneLine_append {a b : List Char} : OneLine (a ++ b) ↔ OneLine a ∧ OneLine b := by
  simp only [OneLine, List.mem_append]
  exact ⟨fun h => ⟨fun c hc => h c (.inl hc), fun c hc => h c (.inr hc)⟩,
    fun h c hc => hc.elim (h.1 c) (h.2 c)⟩

theorem oneLine_of_none (text : List Char) (h : text.any isLineEnd = false) : OneLine text := by
  simpa [OneLine] using h

theorem oneLine_of_blank {text : List Char} (h : ∀ c ∈ text, isSpaceOrTab c = true) :
    OneLine text := fun c hc => isLineEnd_of_blank (h c hc)

/-- What stands before the path of a directive. -/
theorem oneLine_opening {keyword lead : List Char} (hk : keyword.any isLineEnd = false)
    (hl : ∀ c ∈ lead, isSpaceOrTab c = true) : OneLine (keyword ++ (lead ++ ['"'])) :=
  oneLine_append.2 ⟨oneLine_of_none keyword hk,
    oneLine_append.2 ⟨oneLine_of_blank hl, oneLine_of_none ['"'] (by decide)⟩⟩

theorem oneLine_iff_filter {text : List Char} : OneLine text ↔ text.filter isLineEnd = [] := by
  simp [OneLine, List.filter_eq_nil_iff]

/-- What ends a line between two parts of lines. -/
theorem filter_between {front back : List Char} (hf : OneLine front) (hb : OneLine back)
    (text : List Char) : (front ++ (text ++ back)).filter isLineEnd = text.filter isLineEnd := by
  rw [List.filter_append, List.filter_append, oneLine_iff_filter.1 hf, oneLine_iff_filter.1 hb,
    List.nil_append, List.append_nil]

namespace Pattern

variable {α : Type} (P : Pattern α) (path : α → List Char)

/-- A directive is read on one line, but for its path: a line end behind it changes nothing, and
unless it stands in the path, nothing that is read goes over it. -/
structure LineLocal : Prop where
  found_nil : P.found [] = []
  consumed : ∀ {text rest d}, P.read? text = some (d, rest) →
    ∃ front, text = front ++ rest ∧ front ≠ [] ∧ ∀ c ∈ path d, c ∈ front
  extend : ∀ {front rest more d e}, isLineEnd e = true → P.read? front = some (d, rest) →
    P.read? (front ++ e :: more) = some (d, rest ++ e :: more)
  restrict : ∀ {front rest more d e}, isLineEnd e = true → OneLine (path d) →
    P.read? (front ++ e :: more) = some (d, rest) →
    ∃ rest', rest = rest' ++ e :: more ∧ P.read? front = some (d, rest')

namespace LineLocal

variable {P} {path}
variable (hP : P.LineLocal path)
include hP

theorem length_lt {text rest : List Char} {d : α} (h : P.read? text = some (d, rest)) :
    rest.length < text.length := by
  obtain ⟨front, rfl, hne, -⟩ := hP.consumed h
  have := List.length_pos_iff.2 hne
  rw [List.length_append]
  omega

/-- What is found in a text is read somewhere in it. -/
theorem exists_read?_of_mem {text : List Char} {d : α} (hd : d ∈ P.found text) :
    ∃ front more rest, text = front ++ more ∧ P.read? more = some (d, rest) := by
  induction hn : text.length using Nat.strong_induction_on generalizing text with
  | _ n ih =>
    cases hr : P.read? text with
    | some dr =>
      obtain ⟨d', rest⟩ := dr
      have hlt : rest.length < n := hn ▸ hP.length_lt hr
      rw [P.found_of_read? hr, List.mem_cons] at hd
      rcases hd with rfl | hd
      · exact ⟨[], text, rest, rfl, hr⟩
      · obtain ⟨front, more, rest', rfl, hr'⟩ := ih _ hlt hd rfl
        obtain ⟨consumed, rfl, -, -⟩ := hP.consumed hr
        exact ⟨consumed ++ front, more, rest', by simp, hr'⟩
    | none =>
      cases text with
      | nil => simp [hP.found_nil] at hd
      | cons x text =>
        rw [P.found_cons hr] at hd
        obtain ⟨front, more, rest', rfl, hr'⟩ := ih text.length (by simp [← hn]) hd rfl
        exact ⟨x :: front, more, rest', rfl, hr'⟩

theorem path_subset {text : List Char} {d : α} (hd : d ∈ P.found text) :
    ∀ c ∈ path d, c ∈ text := by
  intro c hc
  obtain ⟨front, more, rest, rfl, hr⟩ := hP.exists_read?_of_mem hd
  obtain ⟨consumed, rfl, -, hpath⟩ := hP.consumed hr
  exact List.mem_append_right _ (List.mem_append_left _ (hpath c hc))

/-- A line end that no path goes over cuts the text into two that are read apart. -/
theorem found_append {front more : List Char} {e : Char} (he : isLineEnd e = true)
    (h : ∀ d ∈ P.found (front ++ e :: more), OneLine (path d)) :
    P.found (front ++ e :: more) = P.found front ++ P.found more := by
  induction hn : front.length using Nat.strong_induction_on generalizing front with
  | _ n ih =>
    cases hr : P.read? (front ++ e :: more) with
    | some dr =>
      obtain ⟨d, rest⟩ := dr
      rw [P.found_of_read? hr] at h
      obtain ⟨rest', rfl, hr'⟩ := hP.restrict he (h d (by simp)) hr
      have hlt : rest'.length < n := hn ▸ hP.length_lt hr'
      rw [P.found_of_read? hr, P.found_of_read? hr',
        ih _ hlt (fun d hd => h d (List.mem_cons_of_mem _ hd)) rfl, List.cons_append]
    | none =>
      cases front with
      | nil => rw [List.nil_append, P.found_cons hr, hP.found_nil, List.nil_append]
      | cons c front =>
        have hfront : P.read? (c :: front) = none := by
          rw [Option.eq_none_iff_forall_ne_some]
          rintro ⟨d, rest⟩ hd
          rw [hP.extend he hd] at hr
          cases hr
        have hfound : P.found (c :: front ++ e :: more) = P.found (front ++ e :: more) :=
          P.found_cons hr
        rw [hfound] at h ⊢
        rw [P.found_cons hfront, ih front.length (by simp [← hn]) h rfl]

/-- No path goes over a line end exactly when the directives are found line by line. -/
theorem oneLine_iff {text : List Char} : (∀ d ∈ P.found text, OneLine (path d)) ↔
    P.found text = (Text.splitOnChar isLineEnd text).flatMap P.found := by
  constructor
  · intro h
    induction hn : text.length using Nat.strong_induction_on generalizing text with
    | _ n ih =>
      have hcut := List.takeWhile_append_dropWhile (p := (!isLineEnd ·)) (l := text)
      have hline : OneLine (text.takeWhile (!isLineEnd ·)) := by
        intro c hc
        simpa using Text.of_mem_takeWhile hc
      have hend := Text.stops_dropWhile (!isLineEnd ·) text
      generalize text.takeWhile (!isLineEnd ·) = line at hcut hline
      cases hm : text.dropWhile (!isLineEnd ·) with
      | nil =>
        rw [hm, List.append_nil] at hcut
        subst hcut
        simp [Text.splitOnChar_eq_singleton hline]
      | cons e more =>
        have he : isLineEnd e = true := by simpa using hend e (by simp [hm])
        rw [hm] at hcut
        subst hcut
        rw [hP.found_append he h, Text.splitOnChar_append more hline he, List.flatMap_cons]
        congr 1
        refine ih more.length (by simp [← hn]; omega) (fun d hd => h d ?_) rfl
        rw [hP.found_append he h]
        exact List.mem_append_right _ hd
  · intro h d hd c hc
    rw [h, List.mem_flatMap] at hd
    obtain ⟨line, hline, hd⟩ := hd
    exact Text.not_of_mem_splitOnChar hline c (hP.path_subset hd c hc)

end LineLocal

end Pattern

/-! ## The two kinds of directives -/

namespace Import

theorem Parts.oneLine {lead path gap line rest : List Char} (h : Parts lead path gap line rest) :
    OneLine (keyword ++ (lead ++ ['"'])) ∧ OneLine ('"' :: (gap ++ ':' :: line)) := by
  refine ⟨oneLine_opening (by decide) h.lead, ?_⟩
  exact oneLine_append.2 ⟨oneLine_of_none ['"'] (by decide),
    oneLine_append.2 ⟨oneLine_of_blank h.gap,
      oneLine_append.2 ⟨oneLine_of_none [':'] (by decide), h.line⟩⟩⟩

/-- What ends a line in an import stands in its path. -/
theorem filter_isLineEnd_text {text rest : List Char} {d : Import}
    (h : read? text = some (d, rest)) : d.text.filter isLineEnd = d.path.filter isLineEnd := by
  obtain ⟨lead, path, gap, line, hparts, rfl⟩ := exists_parts_of_read? h
  obtain ⟨hfront, hback⟩ := hparts.oneLine
  have htext : (ofParts lead path gap line).text =
      (keyword ++ (lead ++ ['"'])) ++ (path ++ '"' :: (gap ++ ':' :: line)) := by
    simp [text_ofParts]
  rw [htext]
  exact filter_between hfront hback path

theorem lineLocal_pattern : pattern.LineLocal Import.path where
  found_nil := by
    show (pieces []).filterMap Piece.directive? = []
    rw [pieces_nil]
    rfl
  consumed := by
    intro text rest d h
    refine ⟨d.text, text_append_of_read? h, ?_, fun c hc => by simp [Import.text, hc]⟩
    obtain ⟨lead, path, gap, line, hparts, rfl⟩ := exists_parts_of_read? h
    simp [text_ofParts, keyword]
  extend := by
    intro front rest more d e he h
    obtain ⟨lead, path, gap, line, hparts, rfl⟩ := exists_parts_of_read? h
    rw [text_append_of_read? h, List.append_assoc]
    exact read?_of_parts { hparts with rest := hparts.rest.append_cons (by simp [he]) more }
  restrict := by
    intro front rest more d e he hpath h
    have hline : OneLine d.text := by
      rw [oneLine_iff_filter, filter_isLineEnd_text h]
      exact oneLine_iff_filter.1 hpath
    obtain ⟨rest', hfront, rfl⟩ := hline.exists_append he (text_append_of_read? h).symm
    obtain ⟨lead, path, gap, line, hparts, rfl⟩ := exists_parts_of_read? h
    rw [hfront]
    exact ⟨rest', rfl, read?_of_parts { hparts with rest := hparts.rest.of_append }⟩

end Import

namespace DataImport

theorem Parts.oneLine {lead path gap blanks name rest : List Char}
    (h : Parts lead path gap blanks name rest) :
    OneLine (keyword ++ (lead ++ ['"'])) ∧
      OneLine ('"' :: (gap ++ (marker ++ (blanks ++ name)))) := by
  have hname : OneLine name := fun c hc => isLineEnd_of_isIdentifierRest (h.name c hc)
  refine ⟨oneLine_opening (by decide) h.lead, ?_⟩
  exact oneLine_append.2 ⟨oneLine_of_none ['"'] (by decide),
    oneLine_append.2 ⟨oneLine_of_blank h.gap, oneLine_append.2 ⟨oneLine_of_none marker (by decide),
      oneLine_append.2 ⟨oneLine_of_blank h.blanks, hname⟩⟩⟩⟩

/-- What ends a line in a data import stands in its path. -/
theorem filter_isLineEnd_text {text rest : List Char} {d : DataImport}
    (h : read? text = some (d, rest)) : d.text.filter isLineEnd = d.path.filter isLineEnd := by
  obtain ⟨lead, path, gap, blanks, name, hparts, rfl⟩ := exists_parts_of_read? h
  obtain ⟨hfront, hback⟩ := hparts.oneLine
  have htext : (ofParts lead path gap blanks name).text =
      (keyword ++ (lead ++ ['"'])) ++ (path ++ '"' :: (gap ++ (marker ++ (blanks ++ name)))) := by
    simp [text_ofParts]
  rw [htext]
  exact filter_between hfront hback path

theorem lineLocal_pattern : pattern.LineLocal DataImport.path where
  found_nil := by
    show (pieces []).filterMap Piece.directive? = []
    rw [pieces_nil]
    rfl
  consumed := by
    intro text rest d h
    refine ⟨d.text, text_append_of_read? h, ?_, fun c hc => by simp [DataImport.text, hc]⟩
    obtain ⟨lead, path, gap, blanks, name, hparts, rfl⟩ := exists_parts_of_read? h
    simp [text_ofParts, keyword]
  extend := by
    intro front rest more d e he h
    have hname : isIdentifierRest e = false := by
      rw [← Bool.not_eq_true]
      intro hn
      rw [isLineEnd_of_isIdentifierRest hn] at he
      cases he
    obtain ⟨lead, path, gap, blanks, name, hparts, rfl⟩ := exists_parts_of_read? h
    rw [text_append_of_read? h, List.append_assoc]
    exact read?_of_parts { hparts with rest := hparts.rest.append_cons hname more }
  restrict := by
    intro front rest more d e he hpath h
    have hline : OneLine d.text := by
      rw [oneLine_iff_filter, filter_isLineEnd_text h]
      exact oneLine_iff_filter.1 hpath
    obtain ⟨rest', hfront, rfl⟩ := hline.exists_append he (text_append_of_read? h).symm
    obtain ⟨lead, path, gap, blanks, name, hparts, rfl⟩ := exists_parts_of_read? h
    rw [hfront]
    exact ⟨rest', rfl, read?_of_parts { hparts with rest := hparts.rest.of_append }⟩

end DataImport

/-! ## Spans -/

/-- The octets that a span is about. -/
def slice (octets : Bytes) (span : Nat × Nat) : Bytes := (octets.drop span.1).take (span.2 - span.1)

theorem slice_append (before part after : Bytes) :
    slice (before ++ (part ++ after)) (before.length, before.length + part.length) = part := by
  rw [slice, List.drop_left, Nat.add_sub_cancel_left, List.take_left]

namespace Import

theorem slice_text (d : Import) (before : Bytes) (found : List Piece) :
    slice (before ++ octets ((.directive d :: found).flatMap Piece.text))
      (before.length, before.length + Text.utf8Size d.text) = octets d.text := by
  rw [List.flatMap_cons, octets_append, ← length_octets]
  exact slice_append _ _ _

theorem slice_path (d : Import) (before : Bytes) (found : List Piece) :
    slice (before ++ octets ((.directive d :: found).flatMap Piece.text))
      (before.length + Text.utf8Size d.opening,
        before.length + Text.utf8Size d.opening + Text.utf8Size d.path) = octets d.path := by
  rw [List.flatMap_cons, Piece.text, octets_text_append, ← List.append_assoc, ← length_octets,
    ← length_octets, ← List.length_append]
  exact slice_append _ _ _

/-- A directive is found where its text stands. -/
theorem slice_of_mem_locate {found : List Piece} (before : Bytes) {a : Found}
    (ha : a ∈ locate before.length found) :
    slice (before ++ octets (found.flatMap Piece.text)) a.span = octets a.directive.text ∧
      slice (before ++ octets (found.flatMap Piece.text)) a.pathSpan = octets a.directive.path := by
  induction found generalizing before with
  | nil => cases ha
  | cons piece found ih =>
    have hlen : before.length + Text.utf8Size piece.text = (before ++ octets piece.text).length := by
      rw [List.length_append, length_octets]
    have htext : before ++ octets ((piece :: found).flatMap Piece.text) =
        (before ++ octets piece.text) ++ octets (found.flatMap Piece.text) := by
      rw [List.flatMap_cons, octets_append, List.append_assoc]
    have hrest (h : a ∈ locate (before.length + Text.utf8Size piece.text) found) := by
      rw [hlen] at h
      exact ih _ h
    rw [← htext] at hrest
    cases piece with
    | char c => exact hrest ha
    | directive d =>
      rw [locate, Piece.directive?, List.mem_cons] at ha
      rcases ha with rfl | ha
      · exact ⟨slice_text d _ _, slice_path d _ _⟩
      · exact hrest ha

end Import

/-- The characters that end a line stand in the path of a directive and nowhere else in it, and no
path has one exactly when the directives of the text are those of its lines. -/
theorem line_ends_only_in_paths (text : String) :
    (∀ a ∈ Import.scan text,
      slice (Text.Utf8.encode text) a.span = Import.octets a.directive.text ∧
      slice (Text.Utf8.encode text) a.pathSpan = Import.octets a.directive.path ∧
      a.directive.text.filter isLineEnd = a.directive.path.filter isLineEnd) ∧
    (∀ d ∈ DataImport.directives text, d.text.filter isLineEnd = d.path.filter isLineEnd) ∧
    ((∀ d ∈ Import.directives text, OneLine d.path) ↔
      Import.directives text = (lines text).flatMap Import.directives) ∧
    ((∀ d ∈ DataImport.directives text, OneLine d.path) ↔
      DataImport.directives text = (lines text).flatMap DataImport.directives) := by
  have hlines : (lines text).map String.toList = Text.splitOnChar isLineEnd text.toList := by
    simp [lines, Function.comp_def]
  refine ⟨fun a ha => ?_, fun d hd => ?_, ?_, ?_⟩
  · have hslice := Import.slice_of_mem_locate [] ha
    rw [Import.flatMap_text_pieces] at hslice
    obtain ⟨-, more, rest, -, hr⟩ :=
      Import.lineLocal_pattern.exists_read?_of_mem (Import.directive_mem_of_mem_scan ha)
    exact ⟨hslice.1, hslice.2, Import.filter_isLineEnd_text hr⟩
  · obtain ⟨-, more, rest, -, hr⟩ := DataImport.lineLocal_pattern.exists_read?_of_mem hd
    exact DataImport.filter_isLineEnd_text hr
  · refine Import.lineLocal_pattern.oneLine_iff.trans ?_
    rw [← hlines, List.flatMap_map]
    rfl
  · refine DataImport.lineLocal_pattern.oneLine_iff.trans ?_
    rw [← hlines, List.flatMap_map]
    rfl

-- One import from the number sign on the first line to the name on the second one.
example : (Import.scan "#import \"a\nb\" : x").map (·.span) = [(0, 17)] := by cbv

end Galley.Typst
