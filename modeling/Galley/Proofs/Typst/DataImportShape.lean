import Galley.Proofs.Text.Span
import Galley.Typst.DataImport

/-! # The shape of data import directives

A data import is read exactly where its parts stand: the keyword, blanks, a quoted path that may be
empty, blanks, the marker, blanks that may be missing and a name. -/

namespace Galley.Typst.DataImport

open Text (isSpaceOrTab Stops)

/-- The directive with these parts. -/
def ofParts (lead path gap blanks name : List Char) : DataImport where
  opening := keyword ++ lead ++ ['"']
  path := path
  middle := '"' :: gap ++ marker ++ blanks
  name := name

/-- What the parts of a data import are, and the text after it. -/
structure Parts (lead path gap blanks name rest : List Char) : Prop where
  lead_ne : lead ≠ []
  lead : ∀ c ∈ lead, isSpaceOrTab c = true
  path : '"' ∉ path
  gap_ne : gap ≠ []
  gap : ∀ c ∈ gap, isSpaceOrTab c = true
  blanks : ∀ c ∈ blanks, isSpaceOrTab c = true
  name_ne : name ≠ []
  name : ∀ c ∈ name, isIdentifierRest c = true
  rest : Stops isIdentifierRest rest

theorem text_ofParts (lead path gap blanks name : List Char) :
    (ofParts lead path gap blanks name).text =
      keyword ++ (lead ++ '"' :: (path ++ '"' :: (gap ++ (marker ++ (blanks ++ name))))) := by
  simp [text, ofParts]

theorem not_blank_of_isIdentifierRest {c : Char} (h : isIdentifierRest c = true) :
    isSpaceOrTab c = false := by
  rw [← Bool.not_eq_true]
  intro hb
  simp only [isSpaceOrTab, Bool.or_eq_true, beq_iff_eq] at hb
  rcases hb with rfl | rfl <;> exact absurd h (by decide)

/-- A data import is read where its parts stand. -/
theorem read?_of_parts {lead path gap blanks name rest : List Char}
    (h : Parts lead path gap blanks name rest) :
    read? ((ofParts lead path gap blanks name).text ++ rest) =
      some (ofParts lead path gap blanks name, rest) := by
  have hlead : Stops isSpaceOrTab
      ('"' :: (path ++ '"' :: (gap ++ (marker ++ (blanks ++ (name ++ rest)))))) :=
    Text.stops_cons.2 (by decide)
  have hpath : ∀ c ∈ path, decide (c ≠ '"') = true := by
    intro c hc
    rw [decide_eq_true_eq]
    rintro rfl
    exact h.path hc
  have hquote : Stops (fun c => decide (c ≠ '"'))
      ('"' :: (gap ++ (marker ++ (blanks ++ (name ++ rest))))) := by
    simp [Text.stops_cons]
  have hgap : Stops isSpaceOrTab (marker ++ (blanks ++ (name ++ rest))) :=
    Text.stops_cons.2 (by decide)
  have hblanks : Stops isSpaceOrTab (name ++ rest) := by
    obtain ⟨c, tail, rfl⟩ := List.exists_cons_of_ne_nil h.name_ne
    exact Text.stops_cons.2 (not_blank_of_isIdentifierRest (h.name c (by simp)))
  have hkey : Text.dropStart? keyword ((ofParts lead path gap blanks name).text ++ rest) =
      some (lead ++ '"' :: (path ++ '"' :: (gap ++ (marker ++ (blanks ++ (name ++ rest)))))) := by
    rw [Text.dropStart?_eq_some_iff, text_ofParts]
    simp
  have hmarker : Text.dropStart? marker (marker ++ (blanks ++ (name ++ rest))) =
      some (blanks ++ (name ++ rest)) := by
    rw [Text.dropStart?_eq_some_iff]
  have hne : (lead.isEmpty || gap.isEmpty || name.isEmpty) = false := by
    simp [h.lead_ne, h.gap_ne, h.name_ne]
  simp only [read?, hkey, Text.takeWhile_append_of_stops h.lead hlead,
    Text.dropWhile_append_of_stops h.lead hlead, Text.takeWhile_append_of_stops hpath hquote,
    Text.dropWhile_append_of_stops hpath hquote, Text.takeWhile_append_of_stops h.gap hgap,
    Text.dropWhile_append_of_stops h.gap hgap, hmarker,
    Text.takeWhile_append_of_stops h.blanks hblanks,
    Text.dropWhile_append_of_stops h.blanks hblanks,
    Text.takeWhile_append_of_stops h.name h.rest, Text.dropWhile_append_of_stops h.name h.rest,
    hne, Bool.false_eq_true, if_false]
  rfl

/-- Where a data import is read, its parts stand. -/
theorem exists_parts_of_read? {text rest : List Char} {d : DataImport}
    (h : read? text = some (d, rest)) :
    ∃ lead path gap blanks name, Parts lead path gap blanks name rest ∧
      d = ofParts lead path gap blanks name := by
  simp only [read?] at h
  split at h
  · simp at h
  next r₀ h₀ =>
  split at h
  case h_2 => simp at h
  next r₁ h₁ =>
  split at h
  case h_2 => simp at h
  next r₂ h₂ =>
  split at h
  case h_2 => simp at h
  next r₃ h₃ =>
  split at h
  · simp at h
  next hne =>
  simp only [Bool.or_eq_true, List.isEmpty_iff, not_or] at hne
  obtain ⟨⟨hlead, hgap⟩, hname⟩ := hne
  simp only [Option.some.injEq, Prod.mk.injEq] at h
  obtain ⟨rfl, rfl⟩ := h
  refine ⟨_, _, _, _, _, ⟨hlead, fun c hc => Text.of_mem_takeWhile hc, fun hc => ?_, hgap,
    fun c hc => Text.of_mem_takeWhile hc, fun c hc => Text.of_mem_takeWhile hc, hname,
    fun c hc => Text.of_mem_takeWhile hc, Text.stops_dropWhile _ _⟩, rfl⟩
  simpa using Text.of_mem_takeWhile hc

theorem text_append_of_read? {text rest : List Char} {d : DataImport}
    (h : read? text = some (d, rest)) : text = d.text ++ rest := by
  obtain ⟨_, _, _, _, _, e⟩ := parts_of_read? h
  exact e

/-- A data import is read from a text exactly when its parts stand there up to one character of the
name. -/
theorem isSome_read?_iff {text : List Char} : (read? text).isSome = true ↔
    ∃ lead path gap blanks c tail, (lead ≠ [] ∧ ∀ c ∈ lead, isSpaceOrTab c = true) ∧
      '"' ∉ path ∧ (gap ≠ [] ∧ ∀ c ∈ gap, isSpaceOrTab c = true) ∧
      (∀ c ∈ blanks, isSpaceOrTab c = true) ∧ isIdentifierRest c = true ∧
      text = keyword ++ (lead ++ '"' :: (path ++ '"' ::
        (gap ++ (marker ++ (blanks ++ c :: tail))))) := by
  constructor
  · intro h
    obtain ⟨⟨d, rest⟩, hr⟩ := Option.isSome_iff_exists.1 h
    obtain ⟨lead, path, gap, blanks, name, hp, rfl⟩ := exists_parts_of_read? hr
    obtain ⟨c, name, rfl⟩ := List.exists_cons_of_ne_nil hp.name_ne
    refine ⟨lead, path, gap, blanks, c, name ++ rest, ⟨hp.lead_ne, hp.lead⟩, hp.path,
      ⟨hp.gap_ne, hp.gap⟩, hp.blanks, hp.name c (by simp), ?_⟩
    rw [text_append_of_read? hr, text_ofParts]
    simp
  · rintro ⟨lead, path, gap, blanks, c, tail, ⟨hl, hl'⟩, hp, ⟨hg, hg'⟩, hb, hc, rfl⟩
    have hparts : Parts lead path gap blanks ((c :: tail).takeWhile isIdentifierRest)
        ((c :: tail).dropWhile isIdentifierRest) := by
      refine ⟨hl, hl', hp, hg, hg', hb, by simp [hc], fun c hm => Text.of_mem_takeWhile hm,
        Text.stops_dropWhile _ _⟩
    have hr := read?_of_parts hparts
    rw [text_ofParts] at hr
    simp only [List.append_assoc, List.cons_append, List.takeWhile_append_dropWhile] at hr
    rw [hr]
    rfl

/-! ## Pieces -/

theorem pieces_of_read? {text rest : List Char} {d : DataImport} (h : read? text = some (d, rest)) :
    pieces text = .directive d :: pieces rest := by
  rw [pieces]
  split
  · next d' rest' h' =>
    rw [h] at h'
    obtain ⟨rfl, rfl⟩ : d = d' ∧ rest = rest' := by simpa using h'
    rfl
  · next h' =>
    rw [h] at h'
    cases h'

theorem pieces_cons {c : Char} {text : List Char} (h : read? (c :: text) = none) :
    pieces (c :: text) = .char c :: pieces text := by
  rw [pieces]
  split
  · next h' =>
    rw [h] at h'
    cases h'
  · rfl

theorem pieces_nil : pieces [] = [] := by
  simp [pieces, read?, Text.dropStart?, keyword]

end Galley.Typst.DataImport
