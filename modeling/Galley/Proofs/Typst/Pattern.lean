import Galley.Proofs.Typst.LiteralLayout

/-! # Directives that literals spell

Both kinds of directives begin with a keyword, blanks and a quoted path. Where code and string
literals are laid out, the keyword can only stand at the end of a string, with the quote of that
string as the first and the quote of the next string as the second quote of the path. So literals
spell a directive exactly where one string ends with a keyword and blanks and the next one begins
like what stands behind a path. -/

namespace Galley.Typst

open Literal (escape escaped Quiet Laid)
open Text (isSpaceOrTab)

/-- A kind of directives and how they are found in a text. -/
structure Pattern (α : Type) where
  /-- What stands behind the number sign. -/
  key : List Char
  /-- What can stand behind a path. -/
  Continues : (path after : List Char) → Prop
  /-- How a string begins that can stand behind a path. -/
  Begins : List Char → Prop
  read? : List Char → Option (α × List Char)
  found : List Char → List α
  key_plain : ∀ c ∈ key, escape c = [c] ∧ c ∉ ['#', '"', '\\']
  key_head : ∀ after, (key ++ after).head? ≠ some 'l'
  read?_iff : ∀ {text}, (read? text).isSome = true ↔
    ∃ lead path after, (lead ≠ [] ∧ ∀ c ∈ lead, isSpaceOrTab c = true) ∧ '"' ∉ path ∧
      Continues path after ∧ text = '#' :: (key ++ (lead ++ '"' :: (path ++ '"' :: after)))
  continues_iff : ∀ {path content after}, path ≠ [] →
    (Continues path (escaped content ++ '"' :: after) ↔ Begins content)
  head_of_continues : ∀ {path after}, Continues path after →
    ∃ c ∈ after.head?, isSpaceOrTab c = true ∨ c = ':'
  found_cons : ∀ {c text}, read? (c :: text) = none → found (c :: text) = found text
  found_of_read? : ∀ {text d rest}, read? text = some (d, rest) → found text = d :: found rest

namespace Pattern

variable {α : Type} (P : Pattern α)

/-- A string that ends with the keyword and blanks. -/
def Opens (content : List Char) : Prop :=
  ∃ front lead, content = front ++ '#' :: (P.key ++ lead) ∧ lead ≠ [] ∧ ∀ c ∈ lead, c = ' '

/-- Two strings that spell a directive when one stands behind the other. -/
def Spells (a b : List Char) : Prop := P.Opens a ∧ P.Begins b

/-- A tail in which the first quote is not the end of a path. -/
def Inert (tail : List Char) : Prop :=
  ∀ front after, '"' ∉ front → tail = front ++ '"' :: after →
    ∀ c ∈ after.head?, isSpaceOrTab c = false ∧ c ≠ ':'

/-! ## Where nothing is read -/

theorem read?_eq_none {c : Char} {text : List Char} (h : c ≠ '#') :
    P.read? (c :: text) = none := by
  rw [← Option.not_isSome_iff_eq_none, P.read?_iff]
  rintro ⟨lead, path, after, -, -, -, he⟩
  exact h (List.cons.inj he).1

theorem found_append {part text : List Char}
    (h : ∀ x y, part = x ++ y → y ≠ [] → P.read? (y ++ text) = none) :
    P.found (part ++ text) = P.found text := by
  induction part with
  | nil => rfl
  | cons c part ih =>
    have hc : P.read? (c :: (part ++ text)) = none := h [] (c :: part) rfl (by simp)
    rw [List.cons_append, P.found_cons hc]
    refine ih fun x y hxy hy => h (c :: x) y ?_ hy
    rw [hxy, List.cons_append]

theorem found_quiet {code : List Char} (h : Quiet code) (text : List Char) :
    P.found (code ++ text) = P.found text := by
  refine P.found_append fun x y hxy hy => ?_
  obtain ⟨c, y, rfl⟩ := List.exists_cons_of_ne_nil hy
  by_cases hc : c = '#'
  · subst hc
    have hl := h.sign x y hxy
    rw [← Option.not_isSome_iff_eq_none, P.read?_iff]
    rintro ⟨lead, path, after, -, -, -, he⟩
    have htail : y ++ text = P.key ++ (lead ++ '"' :: (path ++ '"' :: after)) := (List.cons.inj he).2
    refine P.key_head (lead ++ '"' :: (path ++ '"' :: after)) ?_
    rw [← htail]
    cases y with
    | nil => cases hl
    | cons c y => exact hl
  · exact P.read?_eq_none hc

theorem found_quote (text : List Char) : P.found ('"' :: text) = P.found text :=
  P.found_cons (P.read?_eq_none (by decide))

/-! ## What is read in a string -/

theorem quote_not_mem_opening {lead : List Char} (hl : ∀ c ∈ lead, isSpaceOrTab c = true) :
    '"' ∉ '#' :: (P.key ++ lead) := by
  intro h
  rcases List.mem_cons.1 h with h | h
  · exact absurd h (by decide)
  rcases List.mem_append.1 h with h | h
  · exact (P.key_plain _ h).2 (by decide)
  · exact absurd (hl _ h) (by decide)

/-- What is read in a string begins with its last characters. -/
theorem exists_of_read?_escaped {content x y text : List Char} (he : escaped content = x ++ y)
    (hr : (P.read? (y ++ '"' :: text)).isSome = true) :
    ∃ lead path after, y = '#' :: (P.key ++ lead) ∧
      (lead ≠ [] ∧ ∀ c ∈ lead, isSpaceOrTab c = true) ∧ '"' ∉ path ∧ P.Continues path after ∧
      text = path ++ '"' :: after := by
  obtain ⟨lead, path, after, hl, hp, hc, ht⟩ := P.read?_iff.1 hr
  have hcut : ('#' :: (P.key ++ lead)) ++ '"' :: (path ++ '"' :: after) = y ++ '"' :: text := by
    simpa using ht.symm
  rcases Text.append_cons_cases (P.quote_not_mem_opening hl.2) hcut with
    ⟨hy, ht⟩ | ⟨y', hy, -⟩
  · exact ⟨lead, path, after, hy, hl, hp, hc, ht.symm⟩
  · -- a quote in a string stands behind a backslash, and not behind a blank
    obtain ⟨lead', c, rfl⟩ := List.eq_nil_or_concat lead |>.resolve_left hl.1
    have hb : escaped content = (x ++ '#' :: (P.key ++ lead')) ++ c :: '"' :: y' := by
      rw [he, hy]
      simp
    have hblank := hl.2 c (by simp)
    rw [Literal.eq_backslash_of_escaped hb] at hblank
    exact absurd hblank (by decide)

theorem escaped_key : escaped P.key = P.key :=
  Literal.escaped_of_plain fun c hc => (P.key_plain c hc).1

/-- A string ends with the keyword and blanks when it does so as it is written. -/
theorem opens_iff {content : List Char} : P.Opens content ↔
    ∃ x lead, escaped content = x ++ '#' :: (P.key ++ lead) ∧ lead ≠ [] ∧
      ∀ c ∈ lead, isSpaceOrTab c = true := by
  constructor
  · rintro ⟨front, lead, rfl, hne, hl⟩
    refine ⟨escaped front, lead, ?_, hne, fun c hc => by rw [hl c hc]; decide⟩
    rw [Literal.escaped_append, Literal.escaped_cons, Literal.escaped_append, P.escaped_key,
      Literal.escaped_spaces hl]
    rfl
  · rintro ⟨x, lead, he, hne, hl⟩
    have hspaces : ∀ c ∈ lead, c = ' ' := by
      intro c hc
      have hm : c ∈ escaped content := by simp [he, hc]
      exact Literal.eq_space_of_mem_escaped hm (hl c hc)
    obtain ⟨front, rest, rfl, -, hrest⟩ := Literal.exists_sign_of_escaped he
    have hplain : '\\' ∉ P.key ++ lead := by
      intro hm
      rcases List.mem_append.1 hm with hm | hm
      · exact (P.key_plain _ hm).2 (by decide)
      · exact absurd (hspaces _ hm) (by decide)
    exact ⟨front, lead, by rw [Literal.eq_of_escaped hplain hrest], hne, hspaces⟩

/-- No directive is read in a string before the one that its end begins. -/
theorem found_before {content x lead text : List Char}
    (he : escaped content = x ++ '#' :: (P.key ++ lead)) :
    P.found (escaped content ++ '"' :: text) =
      P.found ('#' :: (P.key ++ lead) ++ '"' :: text) := by
  rw [he, List.append_assoc]
  refine P.found_append fun x₁ y hx hy => ?_
  rw [← Option.not_isSome_iff_eq_none]
  intro hr
  have he' : escaped content = x₁ ++ (y ++ '#' :: (P.key ++ lead)) := by
    rw [he, hx, List.append_assoc]
  rw [← List.append_assoc] at hr
  obtain ⟨lead', -, -, hy', hl, -⟩ := P.exists_of_read?_escaped he' hr
  -- the number sign would stand behind the keyword again
  obtain ⟨c, y, rfl⟩ := List.exists_cons_of_ne_nil hy
  have hm : '#' ∈ P.key ++ lead' := by
    rw [List.cons_append, List.cons.injEq] at hy'
    rw [← hy'.2]
    simp
  rcases List.mem_append.1 hm with hm | hm
  · exact (P.key_plain _ hm).2 (by decide)
  · exact absurd (hl.2 _ hm) (by decide)

/-! ## What is read in a laid out text -/

/-- The first directive found in a text is one that two strings spell. -/
def IsSpelled (text : List Char) : Prop :=
  ∃ d rest lead path content after, P.found text = d :: P.found rest ∧
    P.read? ('#' :: (P.key ++ (lead ++ '"' :: (path ++ '"' :: (escaped content ++ '"' :: after))))) =
      some (d, rest) ∧
    (∀ c ∈ lead, isSpaceOrTab c = true) ∧ '"' ∉ path ∧ P.Begins content

/-- A directive is read in a string only if the next string spells it too. -/
theorem begins_of_read? {tail text content x y : List Char} {contents : List (List Char)}
    (ht : Inert tail) (hh : text.head? ≠ some '"') (hlaid : Laid tail contents text)
    (he : escaped content = x ++ y) (hr : (P.read? (y ++ '"' :: text)).isSome = true) :
    ∃ b rest, contents = b :: rest ∧ P.Spells content b := by
  obtain ⟨lead, path, after, rfl, hl, hp, hc, htext⟩ := P.exists_of_read?_escaped he hr
  have hopens : P.Opens content := P.opens_iff.2 ⟨x, lead, he, hl.1, hl.2⟩
  cases hlaid with
  | @code code hq =>
    obtain ⟨front, rfl, htail⟩ := Text.exists_append_of_not_mem hq.noQuote htext
    have hfront : '"' ∉ front := fun hm => hp (List.mem_append_right _ hm)
    obtain ⟨c, hhead, hcolon⟩ := P.head_of_continues hc
    obtain ⟨hblank, hne⟩ := ht front after hfront htail c hhead
    rcases hcolon with h | h
    · rw [hblank] at h
      cases h
    · exact absurd h hne
  | @string code b text' bs hq hh' hlaid' =>
    obtain ⟨rfl, rfl⟩ := Text.append_cons_inj hp hq.noQuote htext.symm
    have hne : code ≠ [] := by
      rintro rfl
      exact hh rfl
    exact ⟨b, bs, rfl, hopens, (P.continues_iff hne).1 hc⟩

/-- In a laid out text the directives of the tail are found and no others, unless two strings that
follow each other spell one. -/
theorem found_laid {tail text : List Char} {contents : List (List Char)} (ht : Inert tail)
    (h : Laid tail contents text) :
    (contents.IsChain (fun a b => ¬P.Spells a b) ∧ P.found text = P.found tail) ∨
      (¬contents.IsChain (fun a b => ¬P.Spells a b) ∧ P.IsSpelled text) := by
  induction h with
  | code hq => exact .inl ⟨.nil, P.found_quiet hq tail⟩
  | @string code content text contents hq hh hlaid ih =>
    have hfound : P.found (code ++ '"' :: (escaped content ++ '"' :: text)) =
        P.found (escaped content ++ '"' :: text) := by
      rw [P.found_quiet hq, P.found_quote]
    by_cases hs : ∃ b rest, contents = b :: rest ∧ P.Spells content b
    · obtain ⟨b, rest, rfl, hopens, hbegins⟩ := hs
      refine .inr ⟨fun hchain => (List.isChain_cons_cons.1 hchain).1 ⟨hopens, hbegins⟩, ?_⟩
      obtain ⟨x, lead, he, hlead⟩ := P.opens_iff.1 hopens
      cases hlaid with
      | @string code' _ text' _ hq' hh' hlaid' =>
        have hne : code' ≠ [] := by
          rintro rfl
          exact hh rfl
        have hread : (P.read? ('#' :: (P.key ++ (lead ++ '"' :: (code' ++ '"' ::
            (escaped b ++ '"' :: text')))))).isSome = true :=
          P.read?_iff.2 ⟨lead, code', _, hlead, hq'.noQuote, (P.continues_iff hne).2 hbegins, rfl⟩
        obtain ⟨⟨d, rest⟩, hread⟩ := Option.isSome_iff_exists.1 hread
        refine ⟨d, rest, lead, code', b, text', ?_, hread, hlead.2, hq'.noQuote, hbegins⟩
        rw [hfound, P.found_before he, ← P.found_of_read? hread]
        simp
    · have hskip : P.found (escaped content ++ '"' :: text) = P.found text := by
        rw [← P.found_quote text]
        refine P.found_append fun x y he _ => ?_
        rw [← Option.not_isSome_iff_eq_none]
        exact fun hr => hs (P.begins_of_read? ht hh hlaid he hr)
      rcases ih with ⟨hchain, ih⟩ | ⟨hchain, d, rest, lead, path, b, after, ih, hread⟩
      · refine .inl ⟨List.isChain_cons.2 ⟨fun b hb hspells => hs ?_, hchain⟩, ?_⟩
        · obtain ⟨rest, hrest⟩ := List.head?_eq_some_iff.1 hb
          exact ⟨b, rest, hrest, hspells⟩
        · rw [hfound, hskip, ih]
      · refine .inr ⟨fun hc => hchain (List.isChain_cons.1 hc).2, d, rest, lead, path, b, after, ?_,
          hread⟩
        rw [hfound, hskip, ih]

end Pattern

end Galley.Typst
