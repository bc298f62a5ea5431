import Galley.Proofs.Template.ExprPassage

/-! # Where a template calls

A function in the tree of a template is called at a place of its text: after the opening mark of a tag
and a stretch of code and strings, and before a closing mark of that kind. -/

namespace Galley.Template

open Lexeme (isSpace skip space? name? string?)

/-- The marks of interpolations and statements. -/
def tagMarks : List (List Char × List Char) := [
  (['\x7b', '\x7b'], ['\x7d', '\x7d']),
  (['\x7b', '%'], ['%', '\x7d'])]

theorem interpolation_mem : (['\x7b', '\x7b'], ['\x7d', '\x7d']) ∈ tagMarks := by simp [tagMarks]

theorem statement_mem : (['\x7b', '%'], ['%', '\x7d']) ∈ tagMarks := by simp [tagMarks]

/-- A call of a name in a tag, with what stands between the opening mark and the name. -/
structure CallSite (text : List Char) (name : String) (inside : List Char) : Prop where
  stands : ∃ front tag blanks after, tag ∈ tagMarks ∧
    text = front ++ tag.1 ++ inside ++ name.toList ++ blanks ++ '(' :: after ∧
    (∀ c ∈ blanks, isSpace c = true) ∧ tag.2 <:+: after
  code : Code inside
  joint : Joint inside

variable {text mid rest taken inside : List Char} {name : String} {names more : List String}

theorem CallSite.append (h : CallSite taken name inside) (rest : List Char) :
    CallSite (taken ++ rest) name inside := by
  obtain ⟨front, tag, blanks, after, htag, rfl, hb, hc⟩ := h.stands
  refine ⟨⟨front, tag, blanks, after ++ rest, htag, by simp, hb, ?_⟩, h.code, h.joint⟩
  exact hc.trans (List.infix_append [] after rest)

theorem CallSite.prepend (h : CallSite text name inside) (taken : List Char) :
    CallSite (taken ++ text) name inside := by
  obtain ⟨front, tag, blanks, after, htag, rfl, hb, hc⟩ := h.stands
  exact ⟨⟨taken ++ front, tag, blanks, after, htag, by simp, hb, hc⟩, h.code, h.joint⟩

/-- What was taken off a text has a place for the call of each of these names. -/
def Holds (text rest : List Char) (names : List String) : Prop :=
  ∃ taken, text = taken ++ rest ∧ ∀ name ∈ names, ∃ inside, CallSite taken name inside

theorem holds_of_suffix (h : rest <:+ text) : Holds text rest [] := by
  obtain ⟨taken, rfl⟩ := h
  exact ⟨taken, rfl, by simp⟩

theorem Holds.refl (text : List Char) : Holds text text [] := holds_of_suffix List.suffix_rfl

theorem Holds.suffix (h : Holds text rest names) : rest <:+ text := by
  obtain ⟨taken, rfl, -⟩ := h
  exact List.suffix_append _ _

theorem Holds.trans (h : Holds text mid names) (h' : Holds mid rest more) :
    Holds text rest (names ++ more) := by
  obtain ⟨taken, rfl, hn⟩ := h
  obtain ⟨next, rfl, hm⟩ := h'
  refine ⟨taken ++ next, by simp, fun name hname => ?_⟩
  rcases List.mem_append.1 hname with hname | hname
  · obtain ⟨inside, hs⟩ := hn name hname
    exact ⟨inside, hs.append next⟩
  · obtain ⟨inside, hs⟩ := hm name hname
    exact ⟨inside, hs.prepend taken⟩

namespace Parser

/-! ## Marks -/

theorem opening?_spec {mark : List Char} {cut : Bool} (h : opening? mark text = some (cut, rest)) :
    text = mark ++ rest ∨ text = mark ++ '-' :: rest := by
  simp only [opening?] at h
  split at h
  · next hd =>
    cases h
    exact .inr (Text.dropStart?_eq_some_iff.1 hd)
  · next hd =>
    cases h
    exact .inl (Text.dropStart?_eq_some_iff.1 hd)
  · cases h

theorem closing?_spec {mark : List Char} {cut : Bool} (h : closing? mark text = some (cut, rest)) :
    ∃ sign, text = sign ++ mark ++ rest := by
  simp only [closing?] at h
  split at h
  all_goals
    obtain ⟨after, hd, h⟩ := Option.map_eq_some_iff.1 h
    cases h
  · exact ⟨['-'], by simp [Text.dropStart?_eq_some_iff.1 hd]⟩
  · exact ⟨[], Text.dropStart?_eq_some_iff.1 hd⟩

theorem suffix_skip (text : List Char) : skip text <:+ text := List.dropWhile_suffix _

theorem suffix_opening {mark : List Char} {cut : Bool} (h : opening? mark text = some (cut, rest)) :
    rest <:+ text := by
  rcases opening?_spec h with rfl | rfl
  · exact List.suffix_append _ _
  · exact (List.suffix_cons _ _).trans (List.suffix_append _ _)

theorem suffix_closing {mark : List Char} {cut : Bool} (h : closing? mark text = some (cut, rest)) :
    rest <:+ text := by
  obtain ⟨sign, rfl⟩ := closing?_spec h
  exact List.suffix_append _ _

theorem suffix_dropStart {start : List Char} (h : Text.dropStart? start text = some rest) :
    rest <:+ text := by
  rw [Text.dropStart?_eq_some_iff.1 h]
  exact List.suffix_append _ _

theorem suffix_string {s : String} (h : string? text = some (s, rest)) : rest <:+ text := by
  obtain ⟨passage, rfl, -⟩ := Lexeme.follows_string h
  exact List.suffix_append _ _

/-- What follows the opening mark of a tag, its sign taken. -/
theorem follows_opening {mark : List Char} {cut : Bool} (h : opening? mark text = some (cut, rest)) :
    ∃ inner, text = mark ++ inner ∧
      ∀ {last names}, Passes rest last names → Passes inner last names := by
  rcases opening?_spec h with rfl | rfl
  · exact ⟨rest, rfl, fun hp => hp⟩
  · refine ⟨'-' :: rest, rfl, fun hp => ?_⟩
    exact ((Breaks.of_signs ['-'] (by simp) (by decide)).passes hp).passes

/-- What was taken off a text is a tag: an opening mark, a passage with calls of these names and a
closing mark. -/
def Tagged (text rest : List Char) (names : List String) : Prop :=
  ∃ tag ∈ tagMarks, ∃ cut opened, opening? tag.1 text = some (cut, opened) ∧
    ∃ mid, Passes opened mid names ∧ ∃ cut', closing? tag.2 (skip mid) = some (cut', rest)

theorem Tagged.holds (h : Tagged text rest names) : Holds text rest names := by
  obtain ⟨tag, htag, cut, opened, ho, mid, hp, cut', hc⟩ := h
  obtain ⟨inner, rfl, hinner⟩ := follows_opening ho
  obtain ⟨passage, rfl, -, hn⟩ := hinner hp
  obtain ⟨blanks, hm, -⟩ := exists_skip mid
  obtain ⟨sign, hs⟩ := closing?_spec hc
  rw [hs] at hm
  refine ⟨tag.1 ++ passage ++ blanks ++ sign ++ tag.2, by simp [hm], fun name hname => ?_⟩
  obtain ⟨before, hsite⟩ := hn name hname
  obtain ⟨spaces, after, rfl, hspaces⟩ := hsite.stands
  refine ⟨before, ⟨[], tag, spaces, after ++ blanks ++ sign ++ tag.2, htag, by simp, hspaces, ?_⟩,
    hsite.code, hsite.joint⟩
  exact (List.suffix_append (after ++ blanks ++ sign) tag.2).isInfix

theorem breaks_space (h : space? text = some rest) : Breaks text rest := by
  cases text with
  | nil => simp [space?] at h
  | cons c text =>
    simp only [space?] at h
    split at h
    · next hc =>
      cases h
      exact (Breaks.of_signs [c] (by simp)
        (by simp [isSign, isCode_of_isSpace hc, isWordChar_of_isSpace hc])).skip
    · cases h

theorem tagStart?_spec {word : String} (hw : word.toList.all isCode = true) {cut : Bool}
    (h : tagStart? word text = some (cut, rest)) :
    ∃ opened, opening? ['\x7b', '%'] text = some (cut, opened) ∧ Breaks opened rest := by
  simp only [tagStart?, Option.bind_eq_bind, Option.bind_eq_some_iff] at h
  obtain ⟨⟨before, opened⟩, ho, after, hd, last, hs, h⟩ := h
  obtain ⟨rfl, rfl⟩ : before = cut ∧ last = rest := by simpa using h
  have hword : Follows opened after [] := .of_skip (Lexeme.follows_word hw hd)
  exact ⟨opened, ho, hword.breaks (breaks_space hs)⟩

theorem suffix_wordTag {word : String} {marks : Trim} (h : wordTag? word text = some (marks, rest)) :
    rest <:+ text := by
  simp only [wordTag?, Option.bind_eq_bind, Option.bind_eq_some_iff] at h
  obtain ⟨⟨before, opened⟩, ho, after, hd, ⟨cut, last⟩, hc, h⟩ := h
  obtain ⟨-, rfl⟩ : ⟨before, cut⟩ = marks ∧ last = rest := by simpa using h
  exact ((((suffix_closing hc).trans (suffix_skip _)).trans (suffix_dropStart hd)).trans
    (suffix_skip _)).trans (suffix_opening ho)

/-! ## Tags with expressions -/

theorem follows_loopNames {found : Option String × String}
    (h : loopNames? text = some (found, rest)) : Follows text rest [] := by
  simp only [loopNames?, Option.bind_eq_bind, Option.bind_eq_some_iff] at h
  obtain ⟨⟨first, named⟩, hn, h⟩ := h
  dsimp only at h
  split at h
  · next after =>
    obtain ⟨⟨second, last⟩, hs, h⟩ := Option.bind_eq_some_iff.1 h
    cases h
    have hcomma : Breaks (',' :: after) after := .of_signs [','] (by simp) (by decide)
    exact (Lexeme.follows_name hn).follow (hcomma.skip.passes (Lexeme.follows_name hs).passes)
  · cases h
    exact Lexeme.follows_name hn

theorem tagged_print {n : Node} (h : print? text = some (n, rest)) :
    Tagged text rest n.functions := by
  simp only [print?, Option.bind_eq_bind, Option.bind_eq_some_iff] at h
  obtain ⟨⟨before, opened⟩, ho, ⟨e, mid⟩, he, ⟨after, last⟩, hc, h⟩ := h
  obtain ⟨rfl, rfl⟩ : .print ⟨before, after⟩ e = n ∧ last = rest := by simpa using h
  rw [Node.functions]
  exact ⟨_, interpolation_mem, before, opened, ho, mid, .of_skip ((reads _).argument he), after, hc⟩

/-- A statement whose tag starts with a word. -/
theorem tagged_statement {word : String} (hw : word.toList.all isCode = true) {cut cut' : Bool}
    {started : List Char} (hs : tagStart? word text = some (cut, started))
    (hp : Passes started mid names) (hc : tagClosing? (skip mid) = some (cut', rest)) :
    Tagged text rest names := by
  obtain ⟨opened, ho, hb⟩ := tagStart?_spec hw hs
  exact ⟨_, statement_mem, cut, opened, ho, mid, (hb.passes hp).passes, cut', hc⟩

theorem tagged_expressionTag {word : String} (hw : word.toList.all isCode = true) {marks : Trim}
    {e : Expr} (h : expressionTag? word text = some ((marks, e), rest)) :
    Tagged text rest e.functions := by
  simp only [expressionTag?, Option.bind_eq_bind, Option.bind_eq_some_iff] at h
  obtain ⟨⟨before, started⟩, hs, ⟨found, mid⟩, he, ⟨after, last⟩, hc, h⟩ := h
  obtain ⟨⟨-, rfl⟩, rfl⟩ : (⟨before, after⟩ = marks ∧ found = e) ∧ last = rest := by simpa using h
  exact tagged_statement hw hs ((reads _).logic he) hc

theorem tagged_assign {word : String} (hw : word.toList.all isCode = true) {everywhere : Bool}
    {n : Node} (h : assign? word everywhere text = some (n, rest)) : Tagged text rest n.functions := by
  simp only [assign?, Option.bind_eq_bind, Option.bind_eq_some_iff] at h
  obtain ⟨⟨before, started⟩, hs, ⟨name, named⟩, hn, valued, hv, ⟨e, mid⟩, he, ⟨after, last⟩, hc, h⟩ := h
  obtain ⟨rfl, rfl⟩ : .assign ⟨before, after⟩ everywhere (String.ofList name) e = n ∧ last = rest := by
    simpa using h
  rw [Node.functions]
  have hsign : Breaks named valued :=
    .of_skip (Text.dropStart?_eq_some_iff.1 hv ▸ .of_signs ['='] (by simp) (by decide))
  have hvalue : Follows named mid e.functions := hsign.skip.passes ((reads _).argument he)
  exact tagged_statement hw hs ((Lexeme.follows_name hn).follow hvalue).passes hc

theorem tagged_loopTag {first : Trim} {key : Option String} {item : String} {container : Expr}
    (h : loopTag? text = some ((first, key, item, container), rest)) :
    Tagged text rest container.functions := by
  simp only [loopTag?, Option.bind_eq_bind, Option.bind_eq_some_iff, Option.orElse_eq_orElse,
    Option.orElse_eq_or, Option.or_eq_some_iff] at h
  obtain ⟨⟨before, started⟩, hs, ⟨⟨k, i⟩, named⟩, hn, spaced, hp, worded, hi, opened, ho,
    ⟨e, mid⟩, he, ⟨after, last⟩, hc, h⟩ := h
  obtain ⟨⟨-, -, -, rfl⟩, rfl⟩ :
      (⟨before, after⟩ = first ∧ k = key ∧ i = item ∧ e = container) ∧ last = rest := by
    simpa using h
  have hnames : Follows started named [] := follows_loopNames hn
  have hin : Breaks named opened :=
    (Follows.breaks (breaks_space hp).follows (Lexeme.breaks_in hi)).follows.breaks (breaks_space ho)
  have hcontainer : Passes opened mid e.functions := by
    rcases he with he | ⟨-, he⟩
    · exact (reads _).filteredBasic he
    · exact (reads _).filteredList he
  exact tagged_statement (by decide) hs (hnames.follow (hin.passes hcontainer)).passes hc

theorem tagged_filterTag {first : Trim} {name : String} {args : List (String × Expr)}
    (h : filterTag? text = some ((first, .mk name args), rest)) :
    Tagged text rest (functionsOfArguments args) := by
  simp only [filterTag?, Option.bind_eq_bind, Option.bind_eq_some_iff, Option.orElse_eq_orElse,
    Option.orElse_eq_or, Option.or_eq_some_iff] at h
  obtain ⟨⟨before, started⟩, hs, ⟨filter, mid⟩, hf, ⟨after, last⟩, hc, h⟩ := h
  obtain ⟨⟨-, rfl⟩, rfl⟩ : (⟨before, after⟩ = first ∧ filter = .mk name args) ∧ last = rest := by
    simpa using h
  refine tagged_statement (by decide) hs ?_ hc
  rcases hf with hf | ⟨-, hf⟩
  · exact ((reads _).call hf).mono (by simp [Call.functions])
  · obtain ⟨⟨name, last⟩, hn, hf⟩ := Option.map_eq_some_iff.1 hf
    cases hf
    exact (Lexeme.follows_name hn).passes

/-! ## Pieces without expressions -/

theorem suffix_plainText (text : List Char) : (plainText text).2 <:+ text := by
  induction text using plainText.induct with
  | case1 => exact List.suffix_rfl
  | case2 c rest h => simp [plainText, h]
  | case3 c rest h _ _ _ ih =>
    simp only [plainText, h]
    exact ih.trans (List.suffix_cons _ _)
  | case4 c rest h _ _ _ ih =>
    rw [plainText.eq_3 _ _ h]
    exact ih.trans (List.suffix_cons _ _)

theorem suffix_commentEnd {cut : Bool} (h : commentEnd? text = some (cut, rest)) : rest <:+ text := by
  revert h
  fun_induction commentEnd? text with
  | case1 after =>
    rintro ⟨⟩
    exact (List.suffix_append ['-', '#', '\x7d'] _)
  | case2 after =>
    rintro ⟨⟩
    exact (List.suffix_append ['#', '\x7d'] _)
  | case3 c text h1 h2 ih => exact fun h => (ih h).trans (List.suffix_cons _ _)
  | case4 => exact fun h => by cases h

theorem holds_comment {n : Node} (h : comment? text = some (n, rest)) : Holds text rest n.functions := by
  simp only [comment?, Option.bind_eq_bind, Option.bind_eq_some_iff] at h
  obtain ⟨⟨before, opened⟩, ho, h⟩ := h
  dsimp only at h
  split at h
  · cases h
  · obtain ⟨⟨after, last⟩, he, h⟩ := Option.bind_eq_some_iff.1 h
    obtain ⟨rfl, rfl⟩ : .comment ⟨before, after⟩ = n ∧ last = rest := by simpa using h
    exact holds_of_suffix ((suffix_commentEnd he).trans (suffix_opening ho))

theorem suffix_strings (fuel : Nat) (text : List Char) : (strings fuel text).2 <:+ text := by
  induction fuel generalizing text with
  | zero => exact List.suffix_rfl
  | succ fuel ih =>
    unfold strings
    split
    · next s after hs =>
      have hafter : after <:+ text := (suffix_string hs).trans (suffix_skip text)
      split
      · next last hc =>
        have hlast : last <:+ after := (hc ▸ List.suffix_cons _ _).trans (suffix_skip after)
        exact ((ih last).trans hlast).trans hafter
      · exact hafter
    · exact List.suffix_rfl

theorem suffix_templateNames {found : List String} (h : templateNames? text = some (found, rest)) :
    rest <:+ text := by
  simp only [templateNames?] at h
  split at h
  · next s after hs =>
    cases h
    exact suffix_string hs
  · split at h
    · next inside =>
      split at h
      · next close hc =>
        cases h
        have hclose := (hc ▸ List.suffix_cons _ _).trans (suffix_skip _)
        exact (hclose.trans (suffix_strings _ _)).trans (List.suffix_cons _ _)
      · cases h
    · cases h

/-- What follows `ignore missing`, or the text where that does not stand. -/
theorem suffix_ignoring (text : List Char) :
    ((Text.dropStart? "ignore".toList text).bind fun rest =>
      Text.dropStart? "missing".toList (skip rest)).getD text <:+ text := by
  cases hi : (Text.dropStart? "ignore".toList text).bind fun rest =>
      Text.dropStart? "missing".toList (skip rest) with
  | none => exact List.suffix_rfl
  | some ignored =>
    obtain ⟨mid, hm, hi⟩ := Option.bind_eq_some_iff.1 hi
    exact ((suffix_dropStart hi).trans (suffix_skip mid)).trans (suffix_dropStart hm)

theorem insert?_spec {n : Node} (h : insert? text = some (n, rest)) :
    n.functions = [] ∧ ∃ cut opened, opening? ['\x7b', '%'] text = some (cut, opened) ∧
      ∃ mid, mid <:+ opened ∧ ∃ cut', tagClosing? mid = some (cut', rest) := by
  simp only [insert?, Option.bind_eq_bind, Option.bind_eq_some_iff] at h
  obtain ⟨⟨before, started⟩, hs, ⟨found, named⟩, hn, ⟨after, last⟩, hc, h⟩ := h
  obtain ⟨opened, ho, hb⟩ := tagStart?_spec (by decide) hs
  have hstarted : started <:+ opened := hb.follows.passes.suffix
  have hnamed : named <:+ opened := (suffix_templateNames hn).trans hstarted
  cases h
  refine ⟨rfl, before, opened, ho, _, ?_, after, hc⟩
  exact ((suffix_skip _).trans (suffix_ignoring _)).trans ((suffix_skip named).trans hnamed)

theorem holds_insert {n : Node} (h : insert? text = some (n, rest)) : Holds text rest n.functions := by
  obtain ⟨hn, cut, opened, ho, mid, hm, cut', hc⟩ := insert?_spec h
  rw [hn]
  exact holds_of_suffix (((suffix_closing hc).trans hm).trans (suffix_opening ho))

theorem suffix_rawEnd {found : List Char × Trim} (h : rawEnd? text = some (found, rest)) :
    rest <:+ text := by
  induction text generalizing found with
  | nil => cases h
  | cons c text ih =>
    simp only [rawEnd?] at h
    split at h
    · next hw =>
      cases h
      exact suffix_wordTag hw
    · obtain ⟨⟨found, last⟩, hr, h⟩ := Option.map_eq_some_iff.1 h
      cases h
      exact (ih hr).trans (List.suffix_cons _ _)

theorem holds_raw {n : Node} (h : raw? text = some (n, rest)) : Holds text rest n.functions := by
  simp only [raw?, Option.bind_eq_bind, Option.bind_eq_some_iff] at h
  obtain ⟨⟨first, opened⟩, ho, ⟨⟨content, last⟩, after⟩, hr, h⟩ := h
  obtain ⟨rfl, rfl⟩ : .raw first content last = n ∧ after = rest := by simpa using h
  exact holds_of_suffix ((suffix_rawEnd hr).trans (suffix_wordTag ho))

end Parser

end Galley.Template
