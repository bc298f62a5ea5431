import Galley.Proofs.Text.Utf8
import Galley.Proofs.Typst.ImportShape
import Mathlib.Data.List.Forall2

/-! # Redirected texts are scanned alike

A path that holds no quote and does not begin like the end of a directive can take the place of any
other: the scanner finds the same directives in the redirected text, at the same places but for the
lengths of the paths, and nothing else in the text changes. -/

namespace Galley.Typst.Import

open Text (isSpaceOrTab Stops)

/-! ## The first directive of a text -/

/-- A path that can stand in the place of another. -/
structure Fits (path : List Char) : Prop where
  ne : path ≠ []
  noQuote : '"' ∉ path
  noColon : ∀ gap tail, (∀ c ∈ gap, isSpaceOrTab c = true) → path ≠ gap ++ ':' :: tail

/-- What may stand for a piece: a directive may get another path, if it fits. -/
inductive Swap : Piece → Piece → Prop where
  | char (c : Char) : Swap (.char c) (.char c)
  | directive {d : Import} {path : List Char} : path = d.path ∨ Fits path →
      Swap (.directive d) (.directive { d with path := path })

/-- Pieces that stand for those of a text. -/
def Swapped (text : List Char) (swapped : List Piece) : Prop :=
  List.Forall₂ Swap (pieces text) swapped

theorem Swapped.of_nil {swapped : List Piece} (h : Swapped [] swapped) : swapped = [] := by
  rw [Swapped, pieces_nil, List.forall₂_nil_left_iff] at h
  exact h

theorem Swapped.of_cons {c : Char} {text : List Char} {swapped : List Piece}
    (h : Swapped (c :: text) swapped) (hr : read? (c :: text) = none) :
    ∃ more, swapped = .char c :: more ∧ Swapped text more := by
  rw [Swapped, pieces_cons hr, List.forall₂_cons_left_iff] at h
  obtain ⟨_, more, ⟨⟩, hmore, rfl⟩ := h
  exact ⟨more, rfl, hmore⟩

/-- What stands for a directive has its parts but for the path, and another path fits. -/
theorem Swapped.of_read? {text rest : List Char} {swapped : List Piece} {d : Import}
    (h : Swapped text swapped) (hr : read? text = some (d, rest)) :
    ∃ lead path path' gap line more, Parts lead path gap line rest ∧
      d = ofParts lead path gap line ∧ (path' = path ∨ Fits path') ∧ path' ≠ [] ∧ '"' ∉ path' ∧
      swapped = .directive (ofParts lead path' gap line) :: more ∧ Swapped rest more := by
  obtain ⟨lead, path, gap, line, hp, rfl⟩ := exists_parts_of_read? hr
  rw [Swapped, pieces_of_read? hr, List.forall₂_cons_left_iff] at h
  obtain ⟨_, more, hswap, hmore, rfl⟩ := h
  cases hswap with
  | @directive _ path' hfit =>
    refine ⟨lead, path, path', gap, line, more, hp, rfl, hfit, ?_, ?_, rfl, hmore⟩
    · exact hfit.elim (fun he => he ▸ hp.path_ne) Fits.ne
    · exact hfit.elim (fun he => he ▸ hp.path) Fits.noQuote

/-- Before its first directive a text is not changed, and there only the path is. -/
theorem swapped_cases {text : List Char} {swapped : List Piece} (h : Swapped text swapped) :
    swapped.flatMap Piece.text = text ∨
      ∃ front lead path path' tail tail', (∀ c ∈ lead, isSpaceOrTab c = true) ∧
        (path' = path ∨ Fits path') ∧ '"' ∉ path ∧
        text = front ++ (keyword ++ (lead ++ '"' :: (path ++ '"' :: tail))) ∧
        swapped.flatMap Piece.text =
          front ++ (keyword ++ (lead ++ '"' :: (path' ++ '"' :: tail'))) := by
  fun_induction pieces text generalizing swapped with
  | case1 text d rest hr ih =>
    obtain ⟨lead, path, path', gap, line, more, hp, rfl, hfit, -, -, rfl, -⟩ := h.of_read? hr
    refine .inr ⟨[], lead, path, path', gap ++ ':' :: (line ++ rest),
      gap ++ ':' :: (line ++ more.flatMap Piece.text), hp.lead, hfit, hp.path, ?_, ?_⟩
    · rw [text_append_of_read? hr, text_ofParts]
      simp only [List.append_assoc, List.cons_append, List.nil_append]
    · rw [List.flatMap_cons, Piece.text, text_ofParts]
      simp only [List.append_assoc, List.cons_append, List.nil_append]
  | case2 => exact .inl (by rw [h.of_nil]; rfl)
  | case3 c text hr ih =>
    obtain ⟨more, rfl, hmore⟩ := h.of_cons hr
    rw [List.flatMap_cons, Piece.text, List.singleton_append]
    rcases ih hmore with he | ⟨front, lead, path, path', tail, tail', hl, hfit, hq, e, e'⟩
    · exact .inl (by rw [he])
    · refine .inr ⟨c :: front, lead, path, path', tail, tail', hl, hfit, hq, ?_, ?_⟩
      · rw [List.cons_append, ← e]
      · rw [List.cons_append, ← e']

/-! ## Scanning the redirected text -/

/-- What follows a quote does not matter once a directive's colon stands before it. -/
theorem isSome_read?_of_front {lead path gap mid more tail : List Char} {c : Char}
    (hl : lead ≠ [] ∧ ∀ c ∈ lead, isSpaceOrTab c = true) (hp : path ≠ [] ∧ '"' ∉ path)
    (hg : ∀ c ∈ gap, isSpaceOrTab c = true) (hc : isLineEnd c = false)
    (h : c :: tail = mid ++ '"' :: more) (other : List Char) :
    (read? (keyword ++ (lead ++ '"' :: (path ++ '"' :: (gap ++ ':' ::
      (mid ++ '"' :: other)))))).isSome = true := by
  obtain ⟨tail', h'⟩ : ∃ tail', mid ++ '"' :: other = c :: tail' := by
    cases mid with
    | nil =>
      obtain ⟨rfl, -⟩ := List.cons.inj h
      exact ⟨other, rfl⟩
    | cons c' mid =>
      obtain ⟨rfl, -⟩ := List.cons.inj h
      exact ⟨_, rfl⟩
  exact isSome_read?_iff.2 ⟨lead, path, gap, c, tail', hl, hp, hg, hc, by rw [h']⟩

/-- The keyword and blanks hold the number sign in front only. -/
theorem keyword_append_ne {front lead lead' : List Char} (hf : front ≠ [])
    (hl : ∀ c ∈ lead', isSpaceOrTab c = true) :
    front ++ (keyword ++ lead) ≠ keyword ++ lead' := by
  intro h
  obtain ⟨c, front, rfl⟩ := List.exists_cons_of_ne_nil hf
  have hmem : '#' ∈ ['i', 'm', 'p', 'o', 'r', 't'] ++ lead' := by
    have ht : front ++ (keyword ++ lead) = ['i', 'm', 'p', 'o', 'r', 't'] ++ lead' :=
      (List.cons.inj h).2
    rw [← ht]
    simp [keyword]
  rcases List.mem_append.1 hmem with hm | hm
  · revert hm
    decide
  · exact absurd (hl _ hm) (by decide)

/-- No directive begins at a character where none began. -/
theorem read?_cons_swapped {c : Char} {text : List Char} {swapped : List Piece}
    (hw : Swapped text swapped) (h : read? (c :: text) = none) :
    read? (c :: swapped.flatMap Piece.text) = none := by
  rw [← Option.not_isSome_iff_eq_none] at h ⊢
  intro hs
  rcases swapped_cases hw with he | ⟨front, lead, path, path', tail, tail', hlead, hfit,
    hpath, e, e'⟩
  · exact h (he ▸ hs)
  obtain ⟨lead₂, path₂, gap₂, c₂, tail₂, hl, hp, hg, hc, heq⟩ := isSome_read?_iff.1 hs
  have hkw : '"' ∉ keyword ++ lead₂ := by
    intro hm
    rcases List.mem_append.1 hm with hm | hm
    · exact absurd hm (by decide)
    · exact absurd (hl.2 _ hm) (by decide)
  have hgap : '"' ∉ gap₂ ++ [':'] := by
    intro hm
    rcases List.mem_append.1 hm with hm | hm
    · exact absurd (hg _ hm) (by decide)
    · exact absurd hm (by decide)
  have h₁ : (keyword ++ lead₂) ++ '"' :: (path₂ ++ '"' :: (gap₂ ++ ':' :: c₂ :: tail₂)) =
      (c :: front ++ (keyword ++ lead)) ++ '"' :: (path' ++ '"' :: tail') := by
    rw [e'] at heq
    simpa using heq.symm
  -- the keyword that was there stands in the first path, or behind the whole directive
  rcases Text.append_cons_cases hkw h₁ with ⟨hx, -⟩ | ⟨mid, hx, h₂⟩
  · exact keyword_append_ne (by simp) hl.2 hx
  apply h
  have etext : c :: text = keyword ++ (lead₂ ++ '"' :: (mid ++ '"' :: (path ++ '"' :: tail))) := by
    have hx' : c :: (front ++ (keyword ++ lead)) = keyword ++ (lead₂ ++ '"' :: mid) := by
      simpa using hx
    calc c :: text
        = c :: (front ++ (keyword ++ lead)) ++ '"' :: (path ++ '"' :: tail) := by simp [e]
      _ = _ := by rw [hx']; simp
  rw [etext]
  rcases Text.append_cons_cases hp.2 h₂ with ⟨rfl, h₃⟩ | ⟨mid', rfl, h₃⟩
  · have h₃' : (gap₂ ++ [':']) ++ c₂ :: tail₂ = path' ++ '"' :: tail' := by simpa using h₃
    obtain ⟨mid', hx', h₄⟩ := Text.exists_append_of_not_mem hgap h₃'
    rcases hfit with rfl | hfit
    · rw [hx']
      have := isSome_read?_of_front hl hp hg hc h₄ tail
      simpa using this
    · exact absurd (by simpa using hx') (hfit.noColon gap₂ mid' hg)
  · have h₃' : (gap₂ ++ [':']) ++ c₂ :: tail₂ = mid' ++ '"' :: (path' ++ '"' :: tail') := by
      simpa using h₃
    obtain ⟨mid'', rfl, h₄⟩ := Text.exists_append_of_not_mem hgap h₃'
    have := isSome_read?_of_front hl hp hg hc h₄ (path ++ '"' :: tail)
    simpa using this

theorem head?_swapped {text : List Char} {swapped : List Piece} (h : Swapped text swapped) :
    (swapped.flatMap Piece.text).head? = text.head? := by
  cases hr : read? text with
  | some found =>
    obtain ⟨d, rest⟩ := found
    obtain ⟨lead, path, path', gap, line, more, -, rfl, -, -, -, rfl, -⟩ := h.of_read? hr
    rw [List.flatMap_cons, Piece.text, text_append_of_read? hr, text_ofParts, text_ofParts]
    rfl
  | none =>
    cases text with
    | nil => rw [h.of_nil]; rfl
    | cons c text =>
      obtain ⟨more, rfl, -⟩ := h.of_cons hr
      rfl

/-- A text put together from what stands for its pieces is cut into the same again. -/
theorem pieces_swapped {text : List Char} {swapped : List Piece} (h : Swapped text swapped) :
    pieces (swapped.flatMap Piece.text) = swapped := by
  fun_induction pieces text generalizing swapped with
  | case1 text d rest hr ih =>
    obtain ⟨lead, path, path', gap, line, more, hp, rfl, -, hne, hquote, rfl, hmore⟩ :=
      h.of_read? hr
    have hp' : Parts lead path' gap line (more.flatMap Piece.text) := by
      refine { hp with path_ne := hne, path := hquote, rest := ?_ }
      rw [Stops, head?_swapped hmore]
      exact hp.rest
    rw [List.flatMap_cons, Piece.text, pieces_of_read? (read?_of_parts hp'), ih hmore]
  | case2 => rw [h.of_nil, List.flatMap_nil, pieces_nil]
  | case3 c text hr ih =>
    obtain ⟨more, rfl, hmore⟩ := h.of_cons hr
    rw [List.flatMap_cons, Piece.text, List.singleton_append,
      pieces_cons (read?_cons_swapped hmore hr), ih hmore]

/-! ## Redirected texts -/

/-- All paths that a text gets fit. -/
def AllFit (f : Import → Option String) (text : List Char) : Prop :=
  ∀ d, .directive d ∈ pieces text → ∀ q, f d = some q → Fits q.toList

/-- All paths that the directives among pieces get at their places fit. -/
def AllFitFrom (f : Found → Option String) (start : Nat) (found : List Piece) : Prop :=
  ∀ a ∈ locate start found, ∀ q, f a = some q → Fits q.toList

theorem directive_mem_of_mem_locate {start : Nat} {found : List Piece} {a : Found}
    (h : a ∈ locate start found) : .directive a.directive ∈ found := by
  induction found generalizing start with
  | nil => cases h
  | cons piece found ih =>
    cases piece with
    | char c => exact List.mem_cons_of_mem _ (ih h)
    | directive d =>
      rw [locate_directive, List.mem_cons] at h
      rcases h with rfl | h
      · exact List.mem_cons_self
      · exact List.mem_cons_of_mem _ (ih h)

theorem AllFit.found {f : Import → Option String} {text : List Char} (h : AllFit f text) :
    AllFitFrom (fun a => f a.directive) 0 (pieces text) :=
  fun a ha => h a.directive (directive_mem_of_mem_locate ha)

theorem redirectFrom_char (f : Found → Option String) (start : Nat) (c : Char)
    (found : List Piece) :
    redirectFrom f start (.char c :: found) =
      .char c :: redirectFrom f (start + Text.utf8Size [c]) found := rfl

theorem redirectFrom_of_none {f : Found → Option String} {start : Nat} {d : Import}
    (h : f (.of start d) = none) (found : List Piece) :
    redirectFrom f start (.directive d :: found) =
      .directive d :: redirectFrom f (start + Text.utf8Size d.text) found := by
  simp only [redirectFrom, Piece.redirect, h]
  rfl

theorem redirectFrom_of_some {f : Found → Option String} {start : Nat} {d : Import} {q : String}
    (h : f (.of start d) = some q) (found : List Piece) :
    redirectFrom f start (.directive d :: found) =
      .directive { d with path := q.toList } ::
        redirectFrom f (start + Text.utf8Size d.text) found := by
  simp only [redirectFrom, Piece.redirect, h]
  rfl

/-- Redirected pieces stand for the pieces. -/
theorem AllFitFrom.swap {f : Found → Option String} {start : Nat} {found : List Piece}
    (h : AllFitFrom f start found) : List.Forall₂ Swap found (redirectFrom f start found) := by
  induction found generalizing start with
  | nil => exact .nil
  | cons piece found ih =>
    cases piece with
    | char c => exact .cons (.char c) (ih h)
    | directive d =>
      rw [AllFitFrom, locate_directive, List.forall_mem_cons] at h
      cases hq : f (.of start d) with
      | none =>
        rw [redirectFrom_of_none hq]
        exact .cons (.directive (.inl rfl)) (ih h.2)
      | some q =>
        rw [redirectFrom_of_some hq]
        exact .cons (.directive (.inr (h.1 q hq))) (ih h.2)

/-- The pieces of the redirected text are the pieces of the text, redirected. -/
theorem pieces_redirectFound {f : Found → Option String} {text : String}
    (h : AllFitFrom f 0 (pieces text.toList)) :
    pieces (redirectFound text f).toList = redirectFrom f 0 (pieces text.toList) := by
  rw [redirectFound, String.toList_ofList]
  exact pieces_swapped h.swap

end Galley.Typst.Import
