import Galley.Proofs.Typst.DataImportShape
import Galley.Proofs.Typst.ImportShape
import Galley.Proofs.Typst.Pattern

/-! # The two kinds of directives

Imports and data imports are directives that literals can spell: both patterns are read where a
keyword, blanks and a quoted path stand, and a string can stand behind the path if it begins with
what their other parts begin with. -/

namespace Galley.Typst

open Literal (escape escaped Raw)
open Text (isSpaceOrTab)

/-- A string that begins with blanks and a colon. -/
def Import.Begins (content : List Char) : Prop :=
  ∃ gap rest, content = gap ++ ':' :: rest ∧ ∀ c ∈ gap, c = ' '

/-- A string that begins with blanks, the marker, blanks that may be missing and a character of a
name. -/
def DataImport.Begins (content : List Char) : Prop :=
  ∃ gap blanks c rest, content = gap ++ (marker ++ (blanks ++ c :: rest)) ∧ gap ≠ [] ∧
    (∀ c ∈ gap, c = ' ') ∧ (∀ c ∈ blanks, c = ' ') ∧ isIdentifierRest c = true

theorem blank_of_space {text : List Char} (h : ∀ c ∈ text, c = ' ') :
    ∀ c ∈ text, isSpaceOrTab c = true := by
  intro c hc
  rw [h c hc]
  decide

theorem blank_space : ∀ c ∈ [' '], isSpaceOrTab c = true := blank_of_space (by simp)

theorem Import.begins_iff {content after : List Char} :
    (∃ gap c tail, (∀ c ∈ gap, isSpaceOrTab c = true) ∧ isLineEnd c = false ∧
      escaped content ++ '"' :: after = gap ++ ':' :: c :: tail) ↔ Begins content := by
  constructor
  · rintro ⟨gap, c, tail, hg, -, h⟩
    have hraw : Raw (gap ++ [':']) := (Literal.raw_of_blank hg).append ⟨by decide, by decide⟩
    have h' : escaped content ++ '"' :: after = (gap ++ [':']) ++ c :: tail := by simpa using h
    obtain ⟨rest, hc, he, -⟩ := hraw.exists_append h'
    refine ⟨gap, rest, by simpa using hc, fun x hx => ?_⟩
    exact Literal.eq_space_of_mem_escaped (by rw [he]; simp [hx]) (hg x hx)
  · rintro ⟨gap, rest, rfl, hg⟩
    have he : escaped (gap ++ ':' :: rest) ++ '"' :: after =
        gap ++ ':' :: (escaped rest ++ '"' :: after) := by
      rw [Literal.escaped_append, Literal.escaped_spaces hg, Literal.escaped_cons]
      simp [escape]
    obtain ⟨c, tail, hc, hhead⟩ : ∃ c tail, isLineEnd c = false ∧
        escaped rest ++ '"' :: after = c :: tail := by
      cases hr : escaped rest with
      | nil => exact ⟨'"', after, by decide, rfl⟩
      | cons c tail =>
        have hm : c ∈ escaped rest := by simp [hr]
        obtain ⟨hn, hr, -⟩ := Literal.not_blank_of_mem_escaped hm
        exact ⟨c, _, by simp [isLineEnd, hn, hr], rfl⟩
    exact ⟨gap, c, tail, blank_of_space hg, hc, by rw [he, hhead]⟩

theorem DataImport.begins_iff {content after : List Char} :
    (∃ gap blanks c tail, (gap ≠ [] ∧ ∀ c ∈ gap, isSpaceOrTab c = true) ∧
      (∀ c ∈ blanks, isSpaceOrTab c = true) ∧ isIdentifierRest c = true ∧
      escaped content ++ '"' :: after = gap ++ (marker ++ (blanks ++ c :: tail))) ↔
      Begins content := by
  constructor
  · rintro ⟨gap, blanks, c, tail, ⟨hne, hg⟩, hb, hc, h⟩
    have hname : Raw [c] := by
      constructor <;>
        · rw [List.mem_singleton]
          rintro rfl
          exact absurd hc (by decide)
    have hraw : Raw (gap ++ (marker ++ (blanks ++ [c]))) :=
      (Literal.raw_of_blank hg).append
        (Raw.append ⟨by decide, by decide⟩ ((Literal.raw_of_blank hb).append hname))
    have h' : escaped content ++ '"' :: after = (gap ++ (marker ++ (blanks ++ [c]))) ++ tail := by
      simpa using h
    obtain ⟨rest, hcontent, he, -⟩ := hraw.exists_append h'
    refine ⟨gap, blanks, c, rest, by simpa using hcontent, hne, fun x hx => ?_, fun x hx => ?_, hc⟩
    · exact Literal.eq_space_of_mem_escaped (by rw [he]; simp [hx]) (hg x hx)
    · exact Literal.eq_space_of_mem_escaped (by rw [he]; simp [hx]) (hb x hx)
  · rintro ⟨gap, blanks, c, rest, rfl, hne, hg, hb, hc⟩
    have hname : escape c = [c] := by
      unfold escape
      repeat' split
      all_goals first | rfl | (subst_vars; exact absurd hc (by decide))
    have hmarker : escaped marker = marker := by decide
    have he : escaped (gap ++ (marker ++ (blanks ++ c :: rest))) ++ '"' :: after =
        gap ++ (marker ++ (blanks ++ c :: (escaped rest ++ '"' :: after))) := by
      rw [Literal.escaped_append, Literal.escaped_append, Literal.escaped_append,
        Literal.escaped_spaces hg, Literal.escaped_spaces hb, Literal.escaped_cons, hname, hmarker]
      simp
    exact ⟨gap, blanks, c, _, ⟨hne, blank_of_space hg⟩, blank_of_space hb, hc, he⟩

theorem exists_blank_head {gap rest : List Char} {c : Char}
    (hg : ∀ c ∈ gap, isSpaceOrTab c = true) :
    ∃ x ∈ (gap ++ c :: rest).head?, isSpaceOrTab x = true ∨ x = c := by
  cases gap with
  | nil => exact ⟨c, rfl, .inr rfl⟩
  | cons x gap => exact ⟨x, rfl, .inl (hg x (by simp))⟩

/-- Imports as a kind of directives. -/
def Import.pattern : Pattern Import where
  key := ['i', 'm', 'p', 'o', 'r', 't']
  Continues path after := path ≠ [] ∧ ∃ gap c tail, (∀ c ∈ gap, isSpaceOrTab c = true) ∧
    isLineEnd c = false ∧ after = gap ++ ':' :: c :: tail
  Begins := Begins
  read? := read?
  found text := (pieces text).filterMap Piece.directive?
  key_plain := by simp [escape]
  key_head := fun _ h => absurd (Option.some.inj h) (by decide)
  read?_iff := by
    intro text
    rw [isSome_read?_iff]
    constructor
    · rintro ⟨lead, path, gap, c, tail, hl, ⟨hne, hp⟩, hg, hc, rfl⟩
      exact ⟨lead, path, _, hl, hp, ⟨hne, gap, c, tail, hg, hc, rfl⟩, rfl⟩
    · rintro ⟨lead, path, after, hl, hp, ⟨hne, gap, c, tail, hg, hc, rfl⟩, rfl⟩
      exact ⟨lead, path, gap, c, tail, hl, ⟨hne, hp⟩, hg, hc, rfl⟩
  continues_iff := fun hne => (and_iff_right hne).trans begins_iff
  head_of_continues := by
    rintro path after ⟨-, gap, c, tail, hg, -, rfl⟩
    exact exists_blank_head hg
  found_cons := fun h => by rw [pieces_cons h, List.filterMap_cons]; rfl
  found_of_read? := fun h => by rw [pieces_of_read? h, List.filterMap_cons]; rfl

/-- Data imports as a kind of directives. -/
def DataImport.pattern : Pattern DataImport where
  key := ['!', 'i', 'm', 'p', 'o', 'r', 't']
  Continues _ after := ∃ gap blanks c tail, (gap ≠ [] ∧ ∀ c ∈ gap, isSpaceOrTab c = true) ∧
    (∀ c ∈ blanks, isSpaceOrTab c = true) ∧ isIdentifierRest c = true ∧
    after = gap ++ (marker ++ (blanks ++ c :: tail))
  Begins := Begins
  read? := read?
  found text := (pieces text).filterMap Piece.directive?
  key_plain := by simp [escape]
  key_head := fun _ h => absurd (Option.some.inj h) (by decide)
  read?_iff := by
    intro text
    rw [isSome_read?_iff]
    constructor
    · rintro ⟨lead, path, gap, blanks, c, tail, hl, hp, hg, hb, hc, rfl⟩
      exact ⟨lead, path, _, hl, hp, ⟨gap, blanks, c, tail, hg, hb, hc, rfl⟩, rfl⟩
    · rintro ⟨lead, path, after, hl, hp, ⟨gap, blanks, c, tail, hg, hb, hc, rfl⟩, rfl⟩
      exact ⟨lead, path, gap, blanks, c, tail, hl, hp, hg, hb, hc, rfl⟩
  continues_iff := fun _ => begins_iff
  head_of_continues := by
    rintro path after ⟨gap, blanks, c, tail, ⟨hne, hg⟩, -, -, rfl⟩
    obtain ⟨x, gap, rfl⟩ := List.exists_cons_of_ne_nil hne
    exact ⟨x, rfl, .inl (hg x (by simp))⟩
  found_cons := fun h => by rw [pieces_cons h, List.filterMap_cons]; rfl
  found_of_read? := fun h => by rw [pieces_of_read? h, List.filterMap_cons]; rfl

theorem Import.blank_of_mem_splitBindings {line : List Char} {c : Char}
    (h : c ∈ (splitBindings line).1) : isSpaceOrTab c = true := by
  unfold splitBindings at h
  dsimp only at h
  split at h
  · exact Text.of_mem_takeWhile ((List.dropLast_sublist _).subset h)
  · exact Text.of_mem_takeWhile h

/-- An import that strings spell has the quote of the second string in its bindings. -/
theorem Import.quote_mem_bindings {lead path content after rest : List Char} {d : Import}
    (hl : ∀ c ∈ lead, isSpaceOrTab c = true) (hp : '"' ∉ path)
    (hr : read? (keyword ++ (lead ++ '"' :: (path ++ '"' :: (escaped content ++ '"' :: after)))) =
      some (d, rest)) : '"' ∈ d.bindings := by
  obtain ⟨lead', path', gap, line, hparts, rfl⟩ := exists_parts_of_read? hr
  have htext := text_append_of_read? hr
  rw [text_ofParts] at htext
  simp only [List.append_assoc, List.cons_append, List.append_cancel_left_eq] at htext
  have hquote : ∀ {text : List Char}, (∀ c ∈ text, isSpaceOrTab c = true) → '"' ∉ text :=
    fun h => (Literal.raw_of_blank h).noQuote
  obtain ⟨-, hpath⟩ := Text.append_cons_inj (hquote hl) (hquote hparts.lead) htext
  obtain ⟨-, hgap⟩ := Text.append_cons_inj hp hparts.path hpath
  have hraw : Raw (gap ++ [':']) :=
    (Literal.raw_of_blank hparts.gap).append ⟨by decide, by decide⟩
  have hcut : escaped content ++ '"' :: after = (gap ++ [':']) ++ (line ++ rest) := by
    simpa using hgap
  obtain ⟨more, -, -, hmore⟩ := hraw.exists_append hcut
  -- the line goes on at least to the quote, since no line ends in a string
  have hline : '"' ∈ line := by
    by_contra hn
    obtain ⟨mid, hmid, hrest⟩ := Text.exists_append_of_not_mem hn hmore
    cases mid with
    | nil =>
      have := hparts.rest '"' (by rw [hrest]; rfl)
      exact absurd this (by decide)
    | cons c mid =>
      have hend := hparts.rest c (by rw [hrest]; rfl)
      have hm : c ∈ escaped more := by simp [hmid]
      obtain ⟨hn, hr, -⟩ := Literal.not_blank_of_mem_escaped hm
      simp [isLineEnd, hn, hr] at hend
  rw [← splitBindings_append line] at hline
  rcases List.mem_append.1 hline with h | h
  · exact absurd (blank_of_mem_splitBindings h) (by decide)
  · exact h

end Galley.Typst
