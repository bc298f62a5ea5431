import Galley.Proofs.Text.Span
import Galley.Typst.Import

/-! # The shape of import directives

A directive is read exactly where its parts stand: the keyword, blanks, a quoted path that is not
empty, a colon with blanks around it and the rest of the line. -/

namespace Galley.Typst.Import

open Text (isSpaceOrTab Stops)

/-- The directive with these parts. -/
def ofParts (lead path gap line : List Char) : Import where
  opening := keyword ++ lead ++ ['"']
  path := path
  middle := '"' :: gap ++ ':' :: (splitBindings line).1
  bindings := (splitBindings line).2

/-- What the parts of a directive are, and the text after it. -/
structure Parts (lead path gap line rest : List Char) : Prop where
  lead_ne : lead ≠ []
  lead : ∀ c ∈ lead, isSpaceOrTab c = true
  path_ne : path ≠ []
  path : '"' ∉ path
  gap : ∀ c ∈ gap, isSpaceOrTab c = true
  line_ne : line ≠ []
  line : ∀ c ∈ line, isLineEnd c = false
  rest : Stops (!isLineEnd ·) rest

theorem text_ofParts (lead path gap line : List Char) :
    (ofParts lead path gap line).text =
      keyword ++ (lead ++ '"' :: (path ++ '"' :: (gap ++ ':' :: line))) := by
  simp [text, ofParts, splitBindings_append]

theorem stops_quote (text : List Char) : Stops isSpaceOrTab ('"' :: text) := by
  simp [Text.stops_cons, isSpaceOrTab]

theorem stops_colon (text : List Char) : Stops isSpaceOrTab (':' :: text) := by
  simp [Text.stops_cons, isSpaceOrTab]

/-- A directive is read where its parts stand. -/
theorem read?_of_parts {lead path gap line rest : List Char}
    (h : Parts lead path gap line rest) :
    read? ((ofParts lead path gap line).text ++ rest) =
      some (ofParts lead path gap line, rest) := by
  have hpath : ∀ c ∈ path, decide (c ≠ '"') = true := by
    intro c hc
    rw [decide_eq_true_eq]
    rintro rfl
    exact h.path hc
  have hquote : Stops (fun c => decide (c ≠ '"')) ('"' :: (gap ++ ':' :: (line ++ rest))) := by
    simp [Text.stops_cons]
  have hline : ∀ c ∈ line, (!isLineEnd c) = true := by
    intro c hc
    simp [h.line c hc]
  have hk : Text.dropStart? keyword ((ofParts lead path gap line).text ++ rest) =
      some (lead ++ '"' :: (path ++ '"' :: (gap ++ ':' :: (line ++ rest)))) := by
    rw [Text.dropStart?_eq_some_iff, text_ofParts]
    simp
  have hne : (lead.isEmpty || path.isEmpty || line.isEmpty) = false := by
    simp [h.lead_ne, h.path_ne, h.line_ne]
  simp only [read?, hk, Text.takeWhile_append_of_stops h.lead (stops_quote _),
    Text.dropWhile_append_of_stops h.lead (stops_quote _),
    Text.takeWhile_append_of_stops hpath hquote, Text.dropWhile_append_of_stops hpath hquote,
    Text.takeWhile_append_of_stops h.gap (stops_colon _),
    Text.dropWhile_append_of_stops h.gap (stops_colon _),
    Text.takeWhile_append_of_stops hline h.rest, Text.dropWhile_append_of_stops hline h.rest,
    hne, Bool.false_eq_true, if_false]
  rfl

/-- Where a directive is read, its parts stand. -/
theorem exists_parts_of_read? {text rest : List Char} {d : Import}
    (h : read? text = some (d, rest)) :
    ∃ lead path gap line, Parts lead path gap line rest ∧ d = ofParts lead path gap line := by
  simp only [read?] at h
  split at h
  · simp at h
  next r₀ h₀ =>
  split at h
  case h_2 => simp at h
  next r₁ h₁ =>
  split at h
  case h_2 => simp at h
  next r₂ h₂ =>
  split at h
  case h_2 => simp at h
  next r₃ h₃ =>
  split at h
  · simp at h
  next hne =>
  simp only [Bool.or_eq_true, List.isEmpty_iff, not_or] at hne
  obtain ⟨⟨hlead, hpath⟩, hline⟩ := hne
  simp only [Option.some.injEq, Prod.mk.injEq] at h
  obtain ⟨rfl, rfl⟩ := h
  refine ⟨_, _, _, _, ⟨hlead, fun c hc => Text.of_mem_takeWhile hc, hpath, fun hc => ?_,
    fun c hc => Text.of_mem_takeWhile hc, hline, fun c hc => ?_, Text.stops_dropWhile _ _⟩, rfl⟩
  · simpa using Text.of_mem_takeWhile hc
  · simpa using Text.of_mem_takeWhile hc

/-- A directive is read from a text exactly when its parts stand there up to one character of the
bindings. -/
theorem isSome_read?_iff {text : List Char} : (read? text).isSome = true ↔
    ∃ lead path gap c tail, (lead ≠ [] ∧ ∀ c ∈ lead, isSpaceOrTab c = true) ∧
      (path ≠ [] ∧ '"' ∉ path) ∧ (∀ c ∈ gap, isSpaceOrTab c = true) ∧ isLineEnd c = false ∧
      text = keyword ++ (lead ++ '"' :: (path ++ '"' :: (gap ++ ':' :: c :: tail))) := by
  constructor
  · intro h
    obtain ⟨⟨d, rest⟩, hr⟩ := Option.isSome_iff_exists.1 h
    obtain ⟨lead, path, gap, line, hp, rfl⟩ := exists_parts_of_read? hr
    obtain ⟨c, line, rfl⟩ := List.exists_cons_of_ne_nil hp.line_ne
    refine ⟨lead, path, gap, c, line ++ rest, ⟨hp.lead_ne, hp.lead⟩, ⟨hp.path_ne, hp.path⟩,
      hp.gap, hp.line c (by simp), ?_⟩
    rw [text_append_of_read? hr, text_ofParts]
    simp
  · rintro ⟨lead, path, gap, c, tail, ⟨hl, hl'⟩, ⟨hp, hp'⟩, hg, hc, rfl⟩
    have hparts : Parts lead path gap ((c :: tail).takeWhile (!isLineEnd ·))
        ((c :: tail).dropWhile (!isLineEnd ·)) := by
      refine ⟨hl, hl', hp, hp', hg, by simp [hc], fun c hm => ?_, Text.stops_dropWhile _ _⟩
      simpa using Text.of_mem_takeWhile hm
    have hr := read?_of_parts hparts
    rw [text_ofParts] at hr
    simp only [List.append_assoc, List.cons_append, List.takeWhile_append_dropWhile] at hr
    rw [hr]
    rfl

/-! ## Pieces -/

theorem pieces_of_read? {text rest : List Char} {d : Import} (h : read? text = some (d, rest)) :
    pieces text = .directive d :: pieces rest := by
  rw [pieces]
  split
  · next d' rest' h' =>
    rw [h] at h'
    obtain ⟨rfl, rfl⟩ : d = d' ∧ rest = rest' := by simpa using h'
    rfl
  · next h' =>
    rw [h] at h'
    cases h'

theorem pieces_cons {c : Char} {text : List Char} (h : read? (c :: text) = none) :
    pieces (c :: text) = .char c :: pieces text := by
  rw [pieces]
  split
  · next h' =>
    rw [h] at h'
    cases h'
  · rfl

theorem pieces_nil : pieces [] = [] := by
  simp [pieces, read?, Text.dropStart?, keyword]

end Galley.Typst.Import
