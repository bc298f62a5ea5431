import Galley.Proofs.Typst.LineEnds

/-! # Directives are read from left to right

Where a directive stands in a text is said by its parts alone. The scanner takes the first place where
one stands, goes on where that one ends, and so finds these directives and no others. -/

namespace Galley.Typst

open Text (isSpaceOrTab utf8Size)

/-! ## Places in a text -/

/-- A place between two characters of a text, or at one of its ends. -/
def IsBoundary (text : String) (place : Nat) : Prop :=
  ∃ before after, text.toList = before ++ after ∧ utf8Size before = place

theorem IsBoundary.le {text : String} {place : Nat} (h : IsBoundary text place) :
    place ≤ (Text.Utf8.encode text).length := by
  obtain ⟨before, after, htext, rfl⟩ := h
  have hencode : Text.Utf8.encode text = Import.octets text.toList := rfl
  rw [hencode, Import.length_octets, htext, Text.utf8Size_append]
  exact Nat.le_add_right _ _

theorem utf8Size_nil : utf8Size [] = 0 := rfl

theorem utf8Size_pos {text : List Char} (h : text ≠ []) : 0 < utf8Size text := by
  obtain ⟨c, text, rfl⟩ := List.exists_cons_of_ne_nil h
  have hc := c.utf8Size_pos
  rw [Text.utf8Size_cons]
  omega

/-- The octets before a place tell what stands before it and behind it. -/
theorem append_inj_of_utf8Size_eq {before before' after after' : List Char}
    (h : before ++ after = before' ++ after') (hs : utf8Size before = utf8Size before') :
    before = before' ∧ after = after' := by
  have hempty : ∀ mid, utf8Size mid = 0 → mid = [] := fun mid h0 =>
    Decidable.byContradiction fun hne => Nat.ne_of_gt (utf8Size_pos hne) h0
  rcases List.append_eq_append_iff.1 h with ⟨mid, rfl, rfl⟩ | ⟨mid, rfl, rfl⟩
  · rw [Text.utf8Size_append] at hs
    simp [hempty mid (by omega)]
  · rw [Text.utf8Size_append] at hs
    simp [hempty mid (by omega)]

/-- The next place after one is behind the next character. -/
theorem eq_or_utf8Size_le {before before' after after' : List Char} {c : Char}
    (h : before ++ c :: after = before' ++ after') (hs : utf8Size before ≤ utf8Size before') :
    before' = before ∨ utf8Size (before ++ [c]) ≤ utf8Size before' := by
  rcases List.append_eq_append_iff.1 h with ⟨mid, rfl, hmid⟩ | ⟨mid, rfl, -⟩
  · cases mid with
    | nil => exact .inl (List.append_nil _)
    | cons x mid =>
      obtain ⟨rfl, -⟩ := List.cons.inj hmid
      rw [List.append_cons before c mid, Text.utf8Size_append (before ++ [c])]
      exact .inr (Nat.le_add_right _ _)
  · rw [Text.utf8Size_append] at hs
    refine .inl (Decidable.byContradiction fun hne => ?_)
    have hmid : mid ≠ [] := fun he => hne (by rw [he, List.append_nil])
    have hpos := utf8Size_pos hmid
    omega

namespace Import

/-! ## Where directives stand -/

/-- The rest of a line after the colon is cut into blanks and bindings. The bindings do not begin with a
blank, unless there are only blanks: then they are the last of these. -/
inductive CutsLine : (blanks bindings : List Char) → Prop where
  | bindings {blanks tail : List Char} {c : Char} : (∀ b ∈ blanks, isSpaceOrTab b = true) →
      isSpaceOrTab c = false → CutsLine blanks (c :: tail)
  | lastBlank {blanks : List Char} {c : Char} : (∀ b ∈ blanks, isSpaceOrTab b = true) →
      isSpaceOrTab c = true → CutsLine blanks [c]

/-- A directive stands in a text: somewhere in it there are the keyword, one or more blanks, a quoted path
that is not empty, a colon with blanks before it, and at least one more character up to the end of the line.
Its places are counted in octets. -/
inductive StandsIn (text : String) : Found → Prop where
  | intro {before lead path gap blanks bindings rest : List Char} :
      Parts lead path gap (blanks ++ bindings) rest → CutsLine blanks bindings →
      text.toList = before ++ (keyword ++ lead ++ ['"']) ++ path ++ ('"' :: gap ++ ':' :: blanks) ++
        bindings ++ rest →
      StandsIn text
        { directive := ⟨keyword ++ lead ++ ['"'], path, '"' :: gap ++ ':' :: blanks, bindings⟩
          span := (utf8Size before, utf8Size (before ++ (keyword ++ lead ++ ['"']) ++ path ++
            ('"' :: gap ++ ':' :: blanks) ++ bindings))
          pathSpan := (utf8Size (before ++ (keyword ++ lead ++ ['"'])),
            utf8Size (before ++ (keyword ++ lead ++ ['"']) ++ path)) }

/-- The directives that stand in a text from a place on, read from left to right: the first that stands
there or later, and then those from where it ends. -/
inductive LeftToRight (text : String) : Nat → List Found → Prop where
  | done {start : Nat} : (∀ a, StandsIn text a → a.span.1 < start) → LeftToRight text start []
  | next {start : Nat} {a : Found} {found : List Found} : StandsIn text a → start ≤ a.span.1 →
      (∀ b, StandsIn text b → start ≤ b.span.1 → a.span.1 ≤ b.span.1) →
      LeftToRight text a.span.2 found → LeftToRight text start (a :: found)

theorem cutsLine_splitBindings {line : List Char} (h : line ≠ []) :
    CutsLine (splitBindings line).1 (splitBindings line).2 := by
  have hblank : ∀ b ∈ line.takeWhile isSpaceOrTab, isSpaceOrTab b = true :=
    fun b hb => Text.of_mem_takeWhile hb
  simp only [splitBindings]
  split
  · next hrest =>
    have hall : line.takeWhile isSpaceOrTab = line := by
      have := List.takeWhile_append_dropWhile (p := isSpaceOrTab) (l := line)
      rwa [List.isEmpty_iff.1 hrest, List.append_nil] at this
    obtain ⟨front, c, rfl⟩ : ∃ front c, line = front ++ [c] :=
      ⟨_, _, (List.dropLast_concat_getLast h).symm⟩
    rw [hall] at hblank ⊢
    rw [List.forall_mem_append] at hblank
    simpa using CutsLine.lastBlank hblank.1 (hblank.2 c (by simp))
  · next hrest =>
    obtain ⟨c, tail, htail⟩ := List.exists_cons_of_ne_nil (mt List.isEmpty_iff.2 hrest)
    have hc := Text.stops_dropWhile isSpaceOrTab line
    rw [htail, Text.stops_cons] at hc
    rw [htail]
    exact .bindings hblank hc

theorem CutsLine.splitBindings_eq {blanks bindings : List Char} (h : CutsLine blanks bindings) :
    splitBindings (blanks ++ bindings) = (blanks, bindings) := by
  cases h with
  | @bindings tail c hb hc =>
    have hstops : Text.Stops isSpaceOrTab (c :: tail) := Text.stops_cons.2 hc
    simp [splitBindings, Text.takeWhile_append_of_stops hb hstops,
      Text.dropWhile_append_of_stops hb hstops]
  | @lastBlank c hb hc =>
    have hall : ∀ b ∈ blanks ++ [c], isSpaceOrTab b = true :=
      List.forall_mem_append.2 ⟨hb, List.forall_mem_singleton.2 hc⟩
    have htake := Text.takeWhile_append_of_stops hall (.nil isSpaceOrTab)
    have hdrop := Text.dropWhile_append_of_stops hall (.nil isSpaceOrTab)
    rw [List.append_nil] at htake hdrop
    simp [splitBindings, htake, hdrop]

/-- A directive stands where it is read. -/
theorem standsIn_iff {text : String} {a : Found} : StandsIn text a ↔
    ∃ before more d rest, text.toList = before ++ more ∧ read? more = some (d, rest) ∧
      a = .of (utf8Size before) d := by
  constructor
  · rintro ⟨hparts, hcut, htext⟩
    next before lead path gap blanks bindings rest =>
    have hd : ofParts lead path gap (blanks ++ bindings) =
        ⟨keyword ++ lead ++ ['"'], path, '"' :: gap ++ ':' :: blanks, bindings⟩ := by
      rw [ofParts, hcut.splitBindings_eq]
    refine ⟨before, _, _, rest, ?_, read?_of_parts hparts, ?_⟩
    · rw [htext, hd]
      simp [Import.text]
    · rw [hd]
      simp [Found.of, Import.text, Text.utf8Size_append, Nat.add_assoc, utf8Size_nil]
  · rintro ⟨before, more, d, rest, htext, hr, rfl⟩
    obtain ⟨lead, path, gap, line, hparts, rfl⟩ := exists_parts_of_read? hr
    have hcut := cutsLine_splitBindings hparts.line_ne
    have hline := splitBindings_append line
    rw [text_append_of_read? hr] at htext
    have hstands := @StandsIn.intro text before lead path gap (splitBindings line).1
      (splitBindings line).2 rest (by rwa [hline]) hcut (by simpa [Import.text, ofParts] using htext)
    simpa [Found.of, ofParts, Import.text, Text.utf8Size_append, Nat.add_assoc, utf8Size_nil]
      using hstands

theorem StandsIn.eq_of_start {text : String} {a b : Found} (ha : StandsIn text a)
    (hb : StandsIn text b) (h : a.span.1 = b.span.1) : a = b := by
  obtain ⟨before, more, d, rest, htext, hr, rfl⟩ := standsIn_iff.1 ha
  obtain ⟨before', more', d', rest', htext', hr', rfl⟩ := standsIn_iff.1 hb
  obtain ⟨rfl, rfl⟩ := append_inj_of_utf8Size_eq (htext.symm.trans htext') h
  rw [hr, Option.some.injEq, Prod.mk.injEq] at hr'
  rw [hr'.1]

/-! ## Reading from left to right -/

theorem LeftToRight.unique {text : String} {start : Nat} {found found' : List Found}
    (h : LeftToRight text start found) (h' : LeftToRight text start found') : found = found' := by
  induction h generalizing found' with
  | done hnone =>
    cases h' with
    | done => rfl
    | next hb hle => exact absurd hle (Nat.not_le.2 (hnone _ hb))
  | next ha hle hfirst _ ih =>
    cases h' with
    | done hnone => exact absurd hle (Nat.not_le.2 (hnone _ ha))
    | next hb hle' hfirst' hrest' =>
      obtain rfl := ha.eq_of_start hb (Nat.le_antisymm (hfirst _ hb hle') (hfirst' _ ha hle))
      rw [ih hrest']

/-- Where no directive stands, reading may begin as well. -/
theorem LeftToRight.of_free {text : String} {start start' : Nat} {found : List Found}
    (h : LeftToRight text start' found) (hs : start ≤ start')
    (hfree : ∀ b, StandsIn text b → start ≤ b.span.1 → start' ≤ b.span.1) :
    LeftToRight text start found := by
  cases h with
  | done hnone =>
    refine .done fun a ha => Nat.lt_of_not_le fun hle => ?_
    exact absurd (hfree a ha hle) (Nat.not_le.2 (hnone a ha))
  | next ha hle hfirst hrest =>
    exact .next ha (hs.trans hle) (fun b hb hle' => hfirst b hb (hfree b hb hle')) hrest

theorem LeftToRight.pairwise {text : String} {start : Nat} {found : List Found}
    (h : LeftToRight text start found) :
    (∀ a ∈ found, start ≤ a.span.1) ∧ found.Pairwise fun a b => a.span.2 ≤ b.span.1 := by
  induction h with
  | done => simp
  | next ha hle _ _ ih =>
    have hspan : ∀ {a}, StandsIn text a → a.span.1 ≤ a.span.2 := by
      rintro a ⟨hparts, hcut, htext⟩
      simp only [Text.utf8Size_append]
      omega
    refine ⟨List.forall_mem_cons.2 ⟨hle, fun b hb => ?_⟩, List.pairwise_cons.2 ih⟩
    exact (hle.trans (hspan ha)).trans (ih.1 b hb)

theorem leftToRight_locate {text : String} {before rest : List Char}
    (h : text.toList = before ++ rest) :
    LeftToRight text (utf8Size before) (locate (utf8Size before) (pieces rest)) := by
  fun_induction pieces rest generalizing before with
  | case1 rest d more hr ih =>
    have htext : text.toList = before ++ d.text ++ more := by
      rw [h, text_append_of_read? hr, List.append_assoc]
    have hrest := ih htext
    rw [Text.utf8Size_append] at hrest
    exact .next (standsIn_iff.2 ⟨before, rest, d, more, h, hr, rfl⟩) (Nat.le_refl _)
      (fun _ _ hle => hle) hrest
  | case2 hr =>
    refine .done fun a ha => ?_
    obtain ⟨before', more, d, rest, htext, hr', rfl⟩ := standsIn_iff.1 ha
    rw [h, List.append_nil] at htext
    have hne : more ≠ [] := by
      rintro rfl
      rw [hr] at hr'
      cases hr'
    have := utf8Size_pos hne
    simp only [htext, Found.of, Text.utf8Size_append]
    omega
  | case3 c rest hr ih =>
    have hrest := ih (h.trans (List.append_cons before c rest))
    rw [locate_char, ← Text.utf8Size_append]
    refine hrest.of_free (by rw [Text.utf8Size_append]; omega) fun b hb hle => ?_
    obtain ⟨before', more, d, rest', htext, hr', rfl⟩ := standsIn_iff.1 hb
    rcases eq_or_utf8Size_le (h.symm.trans htext) hle with rfl | hlater
    · -- there the scanner reads nothing
      rw [h, List.append_cancel_left_eq] at htext
      rw [← htext, hr] at hr'
      cases hr'
    · exact hlater

theorem LeftToRight.standsIn {text : String} {start : Nat} {found : List Found}
    (h : LeftToRight text start found) : ∀ a ∈ found, StandsIn text a := by
  induction h with
  | done => simp
  | next ha _ _ _ ih => exact List.forall_mem_cons.2 ⟨ha, ih⟩

/-! ## Spans -/

/-- The span of a directive has that of its path inside. -/
theorem StandsIn.spans {text : String} {a : Found} (h : StandsIn text a) :
    a.span.1 < a.pathSpan.1 ∧ a.pathSpan.1 < a.pathSpan.2 ∧ a.pathSpan.2 < a.span.2 := by
  obtain ⟨hparts, -, -⟩ := h
  have hpath := utf8Size_pos hparts.path_ne
  have hquote := Char.utf8Size_pos '"'
  simp only [Text.utf8Size_append, Text.utf8Size_cons, List.cons_append]
  omega

/-- The spans are cut between characters, and that of the path cuts out the path. -/
theorem StandsIn.cuts {text : String} {a : Found} (h : StandsIn text a) :
    (IsBoundary text a.span.1 ∧ IsBoundary text a.pathSpan.1 ∧ IsBoundary text a.pathSpan.2 ∧
      IsBoundary text a.span.2) ∧
    slice (Text.Utf8.encode text) a.pathSpan =
      Text.Utf8.encode (String.ofList a.directive.path) := by
  cases h with
  | @intro before lead path gap blanks bindings rest _ _ htext =>
  generalize keyword ++ lead ++ ['"'] = opening at htext ⊢
  generalize '"' :: gap ++ ':' :: blanks = middle at htext ⊢
  have hpath : text.toList = before ++ opening ++ path ++ (middle ++ bindings ++ rest) := by
    rw [htext]
    simp only [List.append_assoc]
  have hopening : text.toList = before ++ opening ++ (path ++ (middle ++ bindings ++ rest)) := by
    rw [hpath, List.append_assoc]
  have hbefore : text.toList =
      before ++ (opening ++ (path ++ (middle ++ bindings ++ rest))) := by
    rw [hopening, List.append_assoc]
  refine ⟨⟨⟨_, _, hbefore, rfl⟩, ⟨_, _, hopening, rfl⟩, ⟨_, _, hpath, rfl⟩,
    ⟨_, _, htext, rfl⟩⟩, ?_⟩
  have hencode : Text.Utf8.encode text = octets text.toList := rfl
  have hslice := slice_append (octets (before ++ opening)) (octets path)
    (octets (middle ++ bindings ++ rest))
  rw [length_octets, length_octets] at hslice
  rw [encode_ofList, hencode, hopening, octets_append, octets_append path,
    Text.utf8Size_append (before ++ opening)]
  exact hslice

/-- The scanner finds exactly the directives that are read from left to right. Their spans are cut between
characters and stand one after another, with that of the path inside, where the path is found. -/
theorem scan_reads_left_to_right (text : String) :
    (∀ found, scan text = found ↔ LeftToRight text 0 found) ∧
    (scan text).Pairwise (fun a b => a.span.2 ≤ b.span.1) ∧
    ∀ a ∈ scan text, a.span.1 < a.pathSpan.1 ∧ a.pathSpan.1 < a.pathSpan.2 ∧
      a.pathSpan.2 < a.span.2 ∧ a.span.2 ≤ (Text.Utf8.encode text).length ∧
      IsBoundary text a.span.1 ∧ IsBoundary text a.pathSpan.1 ∧ IsBoundary text a.pathSpan.2 ∧
      IsBoundary text a.span.2 ∧
      slice (Text.Utf8.encode text) a.pathSpan =
        Text.Utf8.encode (String.ofList a.directive.path) := by
  have hscan : LeftToRight text 0 (scan text) := leftToRight_locate (List.nil_append _).symm
  refine ⟨fun found => ⟨?_, hscan.unique⟩, hscan.pairwise.2, fun a ha => ?_⟩
  · rintro rfl
    exact hscan
  have hstands := hscan.standsIn a ha
  obtain ⟨hopening, hpath, hmiddle⟩ := hstands.spans
  obtain ⟨⟨hstart, hpathStart, hpathStop, hstop⟩, hslice⟩ := hstands.cuts
  exact ⟨hopening, hpath, hmiddle, hstop.le, hstart, hpathStart, hpathStop, hstop, hslice⟩

-- Behind an open quote the quotes are taken the wrong way round, up to the second keyword.
example : (scan "#import \"é #import \"b\": x").map (fun a => (a.span, a.pathSpan)) =
    [((12, 26), (21, 22))] := by cbv

end Import

end Galley.Typst
