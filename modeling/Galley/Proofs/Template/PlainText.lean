import Galley.Proofs.Template.GateCoverage

/-! # Texts with nothing to render

A text in which no mark is opened and closed goes around the engine when there are no bindings. With
bindings the engine reads it: its plain text ends where a mark opens, whether that is closed or not,
and what opens there without being closed is no template. -/

namespace Galley.Template

/-- The marks at which plain text ends. -/
def openingMarks : List (List Char) := [['\x7b', '\x7b'], ['\x7b', '%'], ['\x7b', '#']]

/-- No mark opens in the text. -/
def Markless (text : List Char) : Prop := ∀ mark ∈ openingMarks, ¬ mark <:+: text

instance (text : List Char) : Decidable (Markless text) :=
  inferInstanceAs (Decidable (∀ mark ∈ openingMarks, ¬ mark <:+: text))

/-- Marks that open at the front of a text and are closed in it. -/
def OpensClosed (text : List Char) : Prop :=
  ∃ marks ∈ syntaxMarks, ∃ rest, text = marks.1 ++ rest ∧ marks.2 <:+: rest

variable {text mid rest opened : List Char} {cut cut' : Bool}

theorem markless_cons {c : Char} : Markless (c :: text) ↔
    (∀ mark ∈ openingMarks, ¬ mark <+: c :: text) ∧ Markless text := by
  simp only [Markless, List.infix_cons_iff, not_or]
  exact ⟨fun h => ⟨fun mark hm => (h mark hm).1, fun mark hm => (h mark hm).2⟩,
    fun h mark hm => ⟨h.1 mark hm, h.2 mark hm⟩⟩

theorem not_opens_iff {c : Char} : (∀ mark ∈ openingMarks, ¬ mark <+: '\x7b' :: c :: rest) ↔
    ¬ (c = '\x7b' ∨ c = '%' ∨ c = '#') := by
  simp [openingMarks, eq_comm]

theorem opensAt_of_opensClosed (h : OpensClosed text) : opensAt text = true := by
  obtain ⟨marks, hm, rest, rfl, hc⟩ := h
  rw [opensAt, List.any_eq_true]
  refine ⟨marks, hm, ?_⟩
  simp only [Text.dropStart?_eq_some_iff.2 rfl]
  exact Gate.splitAtFirst?_isSome hc

theorem not_opensClosed (h : hasMarks text = false) : ¬ OpensClosed text := by
  intro ho
  have hopens := opensAt_of_opensClosed ho
  cases text with
  | nil => cases hopens
  | cons c text =>
    rw [hasMarks, hopens] at h
    cases h

theorem hasMarks_suffix (h : hasMarks text = false) (hs : rest <:+ text) : hasMarks rest = false := by
  induction text with
  | nil =>
    rw [List.suffix_nil.1 hs]
    exact h
  | cons c text ih =>
    rw [hasMarks, Bool.or_eq_false_iff] at h
    rcases List.suffix_cons_iff.1 hs with rfl | hs
    · rw [hasMarks, h.1, h.2]
      rfl
    · exact ih h.2 hs

/-! ## The gate -/

namespace Gate

theorem marks_subset : ∀ m ∈ marks, m ∈ syntaxMarks := by decide

theorem region?_eq_none (h : hasMarks text = false) : region? text = none := by
  cases hr : region? text with
  | none => rfl
  | some found =>
    obtain ⟨body, rest⟩ := found
    obtain ⟨m, hm, rfl⟩ := region?_spec hr
    refine absurd ⟨m, marks_subset m hm, body ++ m.2 ++ rest, by simp, ?_⟩ (not_opensClosed h)
    exact ⟨body, rest, rfl⟩

theorem regions_nil : regions [] = [] := by
  rw [regions]
  rfl

theorem regions_eq_nil (h : hasMarks text = false) : regions text = [] := by
  induction text with
  | nil => exact regions_nil
  | cons c text ih =>
    rw [regions_of_none (region?_eq_none h), ih (hasMarks_suffix h (List.suffix_cons c text))]

theorem check_eq_none {text : String} (h : hasMarks text.toList = false) : check text = none := by
  rw [check, regions_eq_nil h]
  rfl

end Gate

/-! ## What opens a node is closed -/

namespace Parser

theorem infix_of_closing {mark : List Char} (h : closing? mark text = some (cut, rest)) :
    mark <:+: text := by
  obtain ⟨sign, rfl⟩ := closing?_spec h
  exact List.infix_append sign mark rest

/-- A mark that opens and is closed in what follows it. -/
theorem opensClosed_of_opening {mark closing : List Char} (hm : (mark, closing) ∈ syntaxMarks)
    (ho : opening? mark text = some (cut, opened)) (hs : mid <:+ opened)
    (hc : closing <:+: mid) : OpensClosed text := by
  have hopened : closing <:+: opened := hc.trans hs.isInfix
  rcases opening?_spec ho with rfl | rfl
  · exact ⟨_, hm, opened, rfl, hopened⟩
  · exact ⟨_, hm, '-' :: opened, rfl, hopened.trans (List.suffix_cons _ _).isInfix⟩

theorem infix_of_commentEnd (h : commentEnd? text = some (cut, rest)) :
    ['#', '\x7d'] <:+: text := by
  revert h
  fun_induction commentEnd? text with
  | case1 after => exact fun _ => ⟨['-'], after, rfl⟩
  | case2 after => exact fun _ => ⟨[], after, rfl⟩
  | case3 c text h1 h2 ih => exact fun h => (ih h).trans (List.suffix_cons _ _).isInfix
  | case4 => exact fun h => by cases h

theorem opensClosed_of_comment {n : Node} (h : comment? text = some (n, rest)) :
    OpensClosed text := by
  simp only [comment?, Option.bind_eq_bind, Option.bind_eq_some_iff] at h
  obtain ⟨⟨before, opened⟩, ho, h⟩ := h
  dsimp only at h
  split at h
  · cases h
  · obtain ⟨⟨after, last⟩, he, -⟩ := Option.bind_eq_some_iff.1 h
    exact opensClosed_of_opening (by decide) ho List.suffix_rfl (infix_of_commentEnd he)

theorem Tagged.opensClosed {names : List String} (h : Tagged text rest names) :
    OpensClosed text := by
  obtain ⟨tag, htag, cut, opened, ho, mid, hp, cut', hc⟩ := h
  exact opensClosed_of_opening (Gate.marks_subset tag (Gate.tag_mem_marks tag htag)) ho
    ((suffix_skip mid).trans hp.suffix) (infix_of_closing hc)

theorem opensClosed_of_statement {started : List Char}
    (ho : tagOpening? text = some (cut, opened)) (hs : started <:+ opened)
    (hc : tagClosing? started = some (cut', rest)) : OpensClosed text :=
  opensClosed_of_opening (by decide) ho hs (infix_of_closing hc)

theorem opensClosed_of_wordTag {word : String} {marks : Trim}
    (h : wordTag? word text = some (marks, rest)) : OpensClosed text := by
  simp only [wordTag?, Option.bind_eq_bind, Option.bind_eq_some_iff] at h
  obtain ⟨⟨before, opened⟩, ho, after, hd, ⟨cut, last⟩, hc, -⟩ := h
  have hafter : after <:+ opened := (suffix_dropStart hd).trans (suffix_skip opened)
  exact opensClosed_of_statement ho ((suffix_skip after).trans hafter) hc

theorem opensClosed_of_loop {fuel : Nat} {n : Node} (h : loop fuel text = some (n, rest)) :
    OpensClosed text := by
  cases fuel with
  | zero => cases h
  | succ fuel =>
    simp only [loop, Option.bind_eq_bind, Option.bind_eq_some_iff] at h
    obtain ⟨⟨⟨first, key, item, container⟩, opened⟩, ho, -⟩ := h
    exact (tagged_loopTag ho).opensClosed

theorem opensClosed_of_filtered {fuel : Nat} {n : Node} (h : filtered fuel text = some (n, rest)) :
    OpensClosed text := by
  cases fuel with
  | zero => cases h
  | succ fuel =>
    simp only [filtered, Option.bind_eq_bind, Option.bind_eq_some_iff] at h
    obtain ⟨⟨⟨first, name, args⟩, opened⟩, ho, -⟩ := h
    exact (tagged_filterTag ho).opensClosed

theorem opensClosed_of_choice {fuel : Nat} {inLoop : Bool} {n : Node}
    (h : choice fuel inLoop text = some (n, rest)) : OpensClosed text := by
  cases fuel with
  | zero => cases h
  | succ fuel =>
    simp only [choice, Option.bind_eq_bind, Option.bind_eq_some_iff] at h
    obtain ⟨⟨⟨marks, condition⟩, opened⟩, ho, -⟩ := h
    exact (tagged_expressionTag (by decide) ho).opensClosed

/-- Where plain text has ended, a node is read only if its marks are closed. -/
theorem opensClosed_of_node {fuel : Nat} {inLoop : Bool} {n : Node}
    (hp : (plainText text).1 = []) (h : node fuel inLoop text = some (n, rest)) :
    OpensClosed text := by
  cases fuel with
  | zero => cases h
  | succ fuel =>
  simp only [node] at h
  split at h
  · split at h
    · next found hs =>
      simp only [Option.orElse_eq_orElse, Option.orElse_eq_or, Option.or_eq_some_iff] at hs
      cases h
      rcases hs with h | ⟨-, h | ⟨-, h | ⟨-, h | ⟨-, h | ⟨-, h⟩⟩⟩⟩⟩
      · exact opensClosed_of_comment h
      · exact (tagged_print h).opensClosed
      · obtain ⟨-, cut, opened, ho, mid, hm, cut', hc⟩ := insert?_spec h
        exact opensClosed_of_statement ho hm hc
      · exact (tagged_assign (by decide) h).opensClosed
      · exact (tagged_assign (by decide) h).opensClosed
      · simp only [raw?, Option.bind_eq_bind, Option.bind_eq_some_iff] at h
        obtain ⟨⟨first, opened⟩, ho, -⟩ := h
        exact opensClosed_of_wordTag ho
    · split at h
      · next found hl =>
        cases h
        exact opensClosed_of_loop hl
      · split at h
        · next found hf =>
          cases h
          exact opensClosed_of_filtered hf
        · split at h
          · next found hc =>
            cases h
            exact opensClosed_of_choice hc
          · split at h
            · simp only [Option.orElse_eq_orElse, Option.orElse_eq_or, Option.or_eq_some_iff,
                Option.map_eq_some_iff] at h
              rcases h with ⟨⟨marks, after⟩, hw, -⟩ | ⟨-, ⟨marks, after⟩, hw, -⟩
              · exact opensClosed_of_wordTag hw
              · exact opensClosed_of_wordTag hw
            · cases h
  · next content after hne he =>
    rw [he] at hp
    exact absurd hp (by simpa using hne)

/-! ## Plain text -/

theorem plainText_append (text : List Char) : (plainText text).1 ++ (plainText text).2 = text := by
  induction text using plainText.induct with
  | case1 => rfl
  | case2 c rest h => simp [plainText, h]
  | case3 c rest h _ _ _ ih =>
    simp only [plainText, h]
    exact congrArg _ ih
  | case4 c rest h _ _ _ ih =>
    rw [plainText.eq_3 _ _ h]
    exact congrArg _ ih

/-- Plain text goes on to the end where no mark opens. -/
theorem plainText_rest_iff (text : List Char) : (plainText text).2 = [] ↔ Markless text := by
  induction text using plainText.induct with
  | case1 => simp [plainText, Markless, openingMarks]
  | case2 c rest h =>
    have ho : c = '\x7b' ∨ c = '%' ∨ c = '#' := by simpa [or_assoc] using h
    rw [markless_cons, not_opens_iff]
    simp [plainText, h, ho]
  | case3 c rest h _ _ _ ih =>
    have ho : ¬ (c = '\x7b' ∨ c = '%' ∨ c = '#') := by simpa [or_assoc] using h
    rw [markless_cons, not_opens_iff, ← ih]
    simp [plainText, h, ho]
  | case4 c rest h _ _ _ ih =>
    have ho : ∀ mark ∈ openingMarks, ¬ mark <+: c :: rest := by
      intro mark hm hp
      obtain ⟨d, rfl⟩ : ∃ d, mark = ['\x7b', d] := by
        simp only [openingMarks, List.mem_cons, List.not_mem_nil, or_false] at hm
        rcases hm with rfl | rfl | rfl <;> exact ⟨_, rfl⟩
      obtain ⟨after, ha⟩ := hp
      obtain ⟨rfl, rfl⟩ := List.cons.inj ha
      exact h d after rfl rfl
    rw [plainText.eq_3 _ _ h, markless_cons, and_iff_right ho]
    exact ih

theorem plainText_rest (text : List Char) : (plainText (plainText text).2).1 = [] := by
  induction text using plainText.induct with
  | case1 => rfl
  | case2 c rest h => simp [plainText, h]
  | case3 c rest h _ _ _ ih => simpa [plainText, h] using ih
  | case4 c rest h _ _ _ ih =>
    rw [plainText.eq_3 _ _ h]
    exact ih

/-- The node of a plain text, if it is not empty. -/
def textNodes (content : List Char) : List Node := if content = [] then [] else [.text content]

theorem node_eq_none {fuel : Nat} {inLoop : Bool} (h : hasMarks text = false)
    (hp : (plainText text).1 = []) : node fuel inLoop text = none := by
  cases hn : node fuel inLoop text with
  | none => rfl
  | some found => exact absurd (opensClosed_of_node hp hn) (not_opensClosed h)

/-- Only the plain text at the front is read. -/
theorem nodes_plain (fuel : Nat) (inLoop : Bool) (h : hasMarks text = false) :
    nodes (fuel + 3) inLoop text = (textNodes (plainText text).1, (plainText text).2) := by
  have hnone (fuel : Nat) : node fuel inLoop (plainText text).2 = none :=
    node_eq_none (hasMarks_suffix h (suffix_plainText text)) (plainText_rest text)
  cases hc : (plainText text).1 with
  | nil =>
    have htext : (plainText text).2 = text := by simpa [hc] using plainText_append text
    rw [htext] at hnone ⊢
    rw [nodes, hnone]
    rfl
  | cons c content =>
    have hnode : node (fuel + 2) inLoop text = some (.text (c :: content), (plainText text).2) := by
      rw [node]
      split
      · next hp =>
        rw [hp] at hc
        cases hc
      · next hp => rw [hp, ← hc, hp]
    have hrest : nodes (fuel + 2) inLoop (plainText text).2 = ([], (plainText text).2) := by
      rw [nodes, hnone]
    rw [nodes, hnode, textNodes, if_neg (List.cons_ne_nil _ _)]
    simp only [hrest]

theorem skipComments_plain (fuel : Nat) (h : hasMarks text = false) :
    skipComments fuel text = text := by
  cases fuel with
  | zero => rfl
  | succ fuel =>
    rw [skipComments]
    split
    · next n rest hc => exact absurd (opensClosed_of_comment hc) (not_opensClosed h)
    · rfl

/-- A text without closed marks is a template only if none opens in it. -/
theorem template_plain (h : hasMarks text = false) :
    template text = if (plainText text).2 = [] then some (textNodes text) else none := by
  have hnodes := nodes_plain (4 * text.length + 5) false h
  rw [template, skipComments_plain text.length h, hnodes]
  split
  · next found hf =>
    obtain ⟨rfl, hrest⟩ := Prod.mk.inj hf
    have htext : (plainText text).1 = text := by simpa [hrest] using plainText_append text
    rw [hrest, if_pos rfl, htext]
  · next hne => rw [if_neg fun hrest => hne _ (by rw [hrest])]

end Parser

/-! ## Rendering -/

theorem trim_textNodes (content : List Char) :
    trim (Parser.textNodes content) = Parser.textNodes content := by
  by_cases hc : content = []
  · simp [Parser.textNodes, hc, trim, cutNodes]
  · simp [Parser.textNodes, hc, trim, cutNodes]

theorem output_textNodes (content : List Char) (bindings : Record) :
    output (Parser.textNodes content) bindings = .ok (String.ofList content) := by
  by_cases hc : content = []
  · simp [Parser.textNodes, hc, output, runNodes, Except.map]
  · simp [Parser.textNodes, hc, output, runNodes, Node.run, Run.print, Except.bind, Except.map]

theorem tooLargeInNodes?_textNodes (content : List Char) :
    tooLargeInNodes? (Parser.textNodes content) = none := by
  by_cases hc : content = []
  · subst hc
    rfl
  · rw [Parser.textNodes, if_neg hc]
    rfl

theorem evaluate_plain {text : String} (h : hasMarks text.toList = false) (bindings : Record) :
    evaluate text bindings = if Markless text.toList then .ok text else .error .grammar := by
  have hplain := Parser.plainText_rest_iff text.toList
  rw [evaluate, Parser.template_plain h]
  by_cases hm : Markless text.toList
  · rw [if_pos (hplain.2 hm), if_pos hm]
    simp only [tooLargeInNodes?_textNodes, trim_textNodes, output_textNodes, String.ofList_toList]
  · rw [if_neg (mt hplain.1 hm), if_neg hm]

/-- A text with nothing to render is printed as it is when there are no bindings or no mark opens in
it. With bindings, one in which a mark opens is refused as a template. -/
theorem render_of_hasSyntax_eq_false (name text : String) (bindings : Record)
    (h : hasSyntax text = false) :
    render name text bindings =
      if bindings = [] ∨ Markless text.toList then .ok text
      else .error (.render name (Suggestion.describe Error.grammar.line bindings.keys)) := by
  have hmarks : hasMarks text.toList = false := (Bool.or_eq_false_iff.1 h).1
  rw [render, Gate.check_eq_none hmarks, h, evaluate_plain hmarks]
  by_cases hb : bindings = []
  · simp [hb]
  · by_cases hm : Markless text.toList
    · simp [hb, hm]
    · simp [hb, hm]

/-- Lone braces, signs and closing marks are kept; a comment that is not closed is refused as soon as
there is a binding. -/
theorem render_lone_braces_and_unclosed :
    render "entry" "#\x7b x \x7d 100%\x7d" [("a", .null)] = .ok "#\x7b x \x7d 100%\x7d" ∧
      render "entry" "\x7b#if" [] = .ok "\x7b#if" ∧
      render "entry" "\x7b#if" [("a", .null)] =
        .error (.render "entry" (Suggestion.describe Error.grammar.line ["a"])) := by
  have hplain : hasSyntax "#\x7b x \x7d 100%\x7d" = false := by decide +kernel
  have hopen : hasSyntax "\x7b#if" = false := by decide +kernel
  have hmarkless : Markless "#\x7b x \x7d 100%\x7d".toList := by decide +kernel
  have hmark : ¬ Markless "\x7b#if".toList := by decide +kernel
  refine ⟨?_, ?_, ?_⟩
  · rw [render_of_hasSyntax_eq_false "entry" _ [("a", .null)] hplain, if_pos (.inr hmarkless)]
  · rw [render_of_hasSyntax_eq_false "entry" _ [] hopen, if_pos (.inl rfl)]
  · rw [render_of_hasSyntax_eq_false "entry" _ [("a", .null)] hopen,
      if_neg (not_or.2 ⟨List.cons_ne_nil _ _, hmark⟩)]
    rfl

end Galley.Template
