import Galley.Proofs.Template.PlainText
import Galley.Proofs.Text.CaseFolding

/-! # What the gate refuses

The regions of a text are said by its marks alone, and a call of a denied function by the characters around
its name. The gate looks into exactly these regions, and names the leftmost call of the first that has one. -/

namespace Galley

namespace Text

/-- The first place of a pattern in a text, by what stands before it and behind it. -/
structure FirstPlace (pattern text before after : List Char) : Prop where
  stands : text = before ++ pattern ++ after
  first : ∀ front back, text = front ++ pattern ++ back → before.length ≤ front.length

variable {pattern text before after before' after' : List Char}

theorem FirstPlace.unique (h : FirstPlace pattern text before after)
    (h' : FirstPlace pattern text before' after') : before' = before ∧ after' = after := by
  have hlength : before.length = before'.length :=
    Nat.le_antisymm (h.first _ _ h'.stands) (h'.first _ _ h.stands)
  have hsame := h.stands.symm.trans h'.stands
  rw [List.append_assoc, List.append_assoc] at hsame
  obtain ⟨hb, ha⟩ := List.append_inj hsame hlength
  exact ⟨hb.symm, (List.append_cancel_left ha).symm⟩

theorem firstPlace_of_splitAtFirst? (h : splitAtFirst? pattern text = some (before, after)) :
    FirstPlace pattern text before after := by
  refine ⟨eq_of_splitAtFirst? h, ?_⟩
  induction text generalizing before with
  | nil =>
    rw [splitAtFirst?] at h
    split at h
    · cases h
      simp
    · cases h
  | cons c text ih =>
    rw [splitAtFirst?] at h
    split at h
    · cases h
      simp
    · next hnone =>
      obtain ⟨⟨before', rest⟩, hsplit, he⟩ := Option.map_eq_some_iff.1 h
      cases he
      intro front back hstands
      cases front with
      | nil =>
        rw [List.nil_append] at hstands
        rw [dropStart?_eq_some_iff.2 hstands] at hnone
        cases hnone
      | cons d front =>
        have hlater := ih hsplit front back (List.cons.inj hstands).2
        simpa using hlater

theorem FirstPlace.splitAtFirst? (h : FirstPlace pattern text before after) :
    splitAtFirst? pattern text = some (before, after) := by
  have hsome : (Text.splitAtFirst? pattern text).isSome = true :=
    Template.Gate.splitAtFirst?_isSome ⟨before, after, h.stands.symm⟩
  obtain ⟨⟨front, back⟩, hsplit⟩ := Option.isSome_iff_exists.1 hsome
  obtain ⟨rfl, rfl⟩ := h.unique (firstPlace_of_splitAtFirst? hsplit)
  exact hsplit

/-- A word begins or ends between two texts. -/
def IsWordBoundary (before after : List Char) : Prop :=
  before.getLast?.any isWordChar ≠ after.head?.any isWordChar

end Text

namespace Template.Gate

/-! ## Regions -/

/-- A mark opens between two texts that make up one, and is closed further on. -/
structure Opens (text before : List Char) (marks : List Char × List Char) (after : List Char) : Prop where
  mem : marks ∈ Gate.marks
  stands : text = before ++ marks.1 ++ after
  closed : marks.2 <:+: after

/-- The bodies of the regions of a text, read from left to right: a region is opened at the earliest place where
a mark opens, and goes up to the first place where this mark is closed; from there it goes on. -/
inductive Regions : List Char → List (List Char) → Prop where
  | done {text : List Char} : (∀ before marks after, ¬ Opens text before marks after) → Regions text []
  | next {text before after body rest : List Char} {marks : List Char × List Char}
      {bodies : List (List Char)} : Opens text before marks after →
      (∀ before' marks' after', Opens text before' marks' after' → before.length ≤ before'.length) →
      Text.FirstPlace marks.2 after body rest → Regions rest bodies → Regions text (body :: bodies)

variable {text before before' after after' body rest : List Char} {m m' : List Char × List Char}
  {bodies bodies' : List (List Char)}

theorem marks_separate : ∀ m ∈ marks, ∀ m' ∈ marks, m.1 <+: m'.1 → m = m' := by decide

/-- One mark at most opens at a place. -/
theorem mark_unique (hm : m ∈ marks) (hm' : m' ∈ marks) (h : m.1 ++ after = m'.1 ++ after') :
    m = m' ∧ after = after' := by
  obtain rfl : m = m' := by
    rcases List.prefix_or_prefix_of_prefix ⟨after, h⟩ ⟨after', rfl⟩ with hpre | hpre
    · exact marks_separate m hm m' hm' hpre
    · exact (marks_separate m' hm' m hm hpre).symm
  exact ⟨rfl, List.append_cancel_left h⟩

theorem Opens.unique (h : Opens text before m after) (h' : Opens text before' m' after')
    (hlength : before.length = before'.length) : before = before' ∧ m = m' ∧ after = after' := by
  have hsame := h.stands.symm.trans h'.stands
  rw [List.append_assoc, List.append_assoc] at hsame
  obtain ⟨hb, hm⟩ := List.append_inj hsame hlength
  exact ⟨hb, mark_unique h.mem h'.mem hm⟩

theorem Regions.unique (h : Regions text bodies) (h' : Regions text bodies') : bodies = bodies' := by
  induction h generalizing bodies' with
  | done hnone =>
    cases h' with
    | done => rfl
    | next ho => exact absurd ho (hnone _ _ _)
  | next ho hfirst hplace _ ih =>
    cases h' with
    | done hnone => exact absurd ho (hnone _ _ _)
    | next ho' hfirst' hplace' hrest' =>
      obtain ⟨rfl, rfl, rfl⟩ := ho.unique ho'
        (Nat.le_antisymm (hfirst _ _ _ ho') (hfirst' _ _ _ ho))
      obtain ⟨rfl, rfl⟩ := hplace.unique hplace'
      rw [ih hrest']

theorem findSome?_of_unique {α β : Type} {f : α → Option β} {a : α} {l : List α} (ha : a ∈ l)
    (h : ∀ b ∈ l, b ≠ a → f b = none) : l.findSome? f = f a := by
  induction l with
  | nil => simp at ha
  | cons b l ih =>
    rw [List.findSome?_cons]
    by_cases hb : b = a
    · subst hb
      cases hf : f b with
      | some x => rfl
      | none =>
        refine List.findSome?_eq_none_iff.2 fun x hx => ?_
        by_cases he : x = b
        · rw [he, hf]
        · exact h x (List.mem_cons_of_mem _ hx) he
    · rw [h b List.mem_cons_self hb]
      exact ih ((List.mem_cons.1 ha).resolve_left (Ne.symm hb)) fun x hx => h x (List.mem_cons_of_mem _ hx)

theorem region?_of_mark (hm : m ∈ marks) (after : List Char) :
    region? (m.1 ++ after) = Text.splitAtFirst? m.2 after := by
  have hself : Text.dropStart? m.1 (m.1 ++ after) = some after := Text.dropStart?_eq_some_iff.2 rfl
  rw [region?, findSome?_of_unique hm]
  · simp only [hself]
  · intro m' hm' hne
    have hother : Text.dropStart? m'.1 (m.1 ++ after) = none := by
      rw [Option.eq_none_iff_forall_ne_some]
      intro after' hstart
      exact hne (mark_unique hm hm' (Text.dropStart?_eq_some_iff.1 hstart)).1.symm
    simp only [hother]

/-- A region is read where a mark opens in front. -/
theorem region?_eq_some_iff : region? text = some (body, rest) ↔
    ∃ m after, Opens text [] m after ∧ Text.FirstPlace m.2 after body rest := by
  constructor
  · intro h
    obtain ⟨m, hm, h⟩ := List.exists_of_findSome?_eq_some h
    dsimp only at h
    split at h
    · next after hstart =>
      have hplace := Text.firstPlace_of_splitAtFirst? h
      exact ⟨m, after, ⟨hm, Text.dropStart?_eq_some_iff.1 hstart, body, rest, hplace.stands.symm⟩, hplace⟩
    · cases h
  · rintro ⟨m, after, ho, hplace⟩
    rw [ho.stands, List.nil_append, region?_of_mark ho.mem, hplace.splitAtFirst?]

theorem not_opens_of_region? (h : region? text = none) : ¬ Opens text [] m after := by
  intro ho
  have hsome := splitAtFirst?_isSome ho.closed
  rw [← region?_of_mark ho.mem, ← List.nil_append (m.1 ++ after), ← List.append_assoc, ← ho.stands, h]
    at hsome
  cases hsome

theorem opens_cons {c : Char} : Opens (c :: text) (c :: before) m after ↔ Opens text before m after := by
  constructor
  · rintro ⟨hm, hs, hc⟩
    exact ⟨hm, (List.cons.inj hs).2, hc⟩
  · rintro ⟨hm, rfl, hc⟩
    exact ⟨hm, rfl, hc⟩

/-- A character where no mark opens in front is passed over. -/
theorem Regions.cons {c : Char} (h : Regions text bodies)
    (hfree : ∀ m after, ¬ Opens (c :: text) [] m after) : Regions (c :: text) bodies := by
  have hcons : ∀ {before m after}, Opens (c :: text) before m after →
      ∃ before', before = c :: before' ∧ Opens text before' m after := by
    intro before m after ho
    cases before with
    | nil => exact absurd ho (hfree m after)
    | cons d before =>
      obtain rfl : c = d := (List.cons.inj ho.stands).1
      exact ⟨before, rfl, opens_cons.1 ho⟩
  cases h with
  | done hnone =>
    refine .done fun before m after ho => ?_
    obtain ⟨before', -, ho'⟩ := hcons ho
    exact hnone _ _ _ ho'
  | next ho hfirst hplace hrest =>
    refine .next (opens_cons.2 ho) (fun other m' after' ho' => ?_) hplace hrest
    obtain ⟨before', rfl, hlater⟩ := hcons ho'
    exact Nat.succ_le_succ (hfirst _ _ _ hlater)

theorem regions_regions (text : List Char) : Regions text (regions text) := by
  induction text using regions.induct with
  | case1 text body rest hr ih =>
    rw [regions_of_region? hr]
    obtain ⟨m, after, ho, hplace⟩ := region?_eq_some_iff.1 hr
    exact .next ho (fun _ _ _ _ => Nat.zero_le _) hplace ih
  | case2 hr =>
    rw [regions_nil]
    refine .done fun before m after ho => ?_
    obtain ⟨hb, -⟩ := List.append_eq_nil_iff.1 (List.append_eq_nil_iff.1 ho.stands.symm).1
    exact not_opens_of_region? hr (hb ▸ ho)
  | case3 c text hr ih =>
    rw [regions_of_none hr]
    exact ih.cons fun _ _ => not_opens_of_region? hr

/-! ## Calls -/

/-- Between two texts a call begins: the second goes on with the name of a denied function, in any case, then
blanks or none, then an opening parenthesis, and a word begins or ends where the name begins. -/
structure Calls (before after written : List Char) : Prop where
  denied : ∃ name ∈ deniedFunctions, written.map Text.simpleFold = name.toList.map Text.simpleFold
  stands : ∃ blanks rest, after = written ++ (blanks ++ '(' :: rest) ∧ ∀ c ∈ blanks, Text.isBlank c = true
  bounded : Text.IsWordBoundary before after

/-- The name in the leftmost call of a text. -/
def FirstCall (text written : List Char) : Prop :=
  ∃ before after, text = before ++ after ∧ Calls before after written ∧
    ∀ before' after' written', text = before' ++ after' → Calls before' after' written' →
      before.length ≤ before'.length

/-- The characters of the names of functions. -/
def IsNameChar (c : Char) : Prop := c = '_' ∨ 'a' ≤ c ∧ c ≤ 'z'

instance (c : Char) : Decidable (IsNameChar c) := inferInstanceAs (Decidable (_ ∨ _))

theorem isNameChar_of_denied : ∀ name ∈ deniedFunctions, ∀ c ∈ name.toList, IsNameChar c := by
  simp [deniedFunctions, IsNameChar]

theorem isNameChar_cases : ∀ n < 0x80, IsNameChar (Char.ofNat n) →
    (Char.ofNat n).toLower = Char.ofNat n ∧ n ≠ 0 := by decide

variable {c d : Char} {written written' : List Char}

theorem IsNameChar.ascii (h : IsNameChar d) : d.toNat < 0x80 ∧ d.toNat ≠ 0 ∧ d.toLower = d := by
  have hlow : d.toNat < 0x80 := by
    rcases h with rfl | ⟨-, hz⟩
    · decide
    · exact Nat.lt_of_le_of_lt hz (by decide)
  have hcases := isNameChar_cases d.toNat hlow
  rw [Char.ofNat_toNat] at hcases
  exact ⟨hlow, (hcases h).2, (hcases h).1⟩

theorem IsNameChar.simpleFold_eq (h : IsNameChar d) : Text.simpleFold d = d := by
  obtain ⟨hlow, hzero, hlower⟩ := h.ascii
  exact (Text.simpleFold_eq_iff hlow hzero).2 (.inl ⟨hlow, hlower⟩)

theorem toLower_of_high (h : 0x80 ≤ c.toNat) : c.toLower = c := by
  refine dif_neg fun hupper => ?_
  have hz : c.toNat ≤ 0x5A := UInt32.le_iff_toNat_le.1 hupper.2
  omega

/-- Among the characters of names, the gate folds as Unicode does. -/
theorem IsNameChar.fold_eq_iff (h : IsNameChar d) : fold c = d ↔ Text.simpleFold c = Text.simpleFold d := by
  obtain ⟨hlow, hzero, -⟩ := h.ascii
  rw [h.simpleFold_eq, Text.simpleFold_eq_iff hlow hzero, fold]
  by_cases hs : c = 'ſ'
  · subst hs
    simp [eq_comm]
  by_cases hk : c = '\u212A'
  · subst hk
    simp [eq_comm]
  rw [if_neg hs, if_neg hk]
  simp only [hs, hk, false_and, or_false]
  refine ⟨fun he => ⟨Decidable.byContradiction fun hc => ?_, he⟩, And.right⟩
  rw [toLower_of_high (by omega)] at he
  exact hc (he ▸ hlow)

theorem map_fold_eq_iff {name : List Char} (h : ∀ d ∈ name, IsNameChar d) :
    written.map fold = name ↔ written.map Text.simpleFold = name.map Text.simpleFold := by
  induction written generalizing name with
  | nil => simp [eq_comm]
  | cons c written ih =>
    cases name with
    | nil => simp
    | cons d name =>
      rw [List.forall_mem_cons] at h
      simp only [List.map_cons, List.cons.injEq, h.1.fold_eq_iff, ih h.2]

/-- What may stand in a written name. -/
def isWritten (c : Char) : Bool := Text.isWordChar c && !Text.isBlank c && c != '('

theorem isWritten_of_ascii : ∀ n < 0x80, IsNameChar (Char.ofNat n).toLower →
    isWritten (Char.ofNat n) = true := by decide

theorem IsNameChar.isWritten (h : IsNameChar (fold c)) : isWritten c = true := by
  by_cases hs : c = 'ſ'
  · subst hs
    decide +kernel
  by_cases hk : c = '\u212A'
  · subst hk
    decide +kernel
  rw [fold, if_neg hs, if_neg hk] at h
  have hlow : c.toNat < 0x80 := by
    refine Decidable.byContradiction fun hc => ?_
    rw [toLower_of_high (by omega)] at h
    exact hc h.ascii.1
  have hascii := isWritten_of_ascii c.toNat hlow
  rw [Char.ofNat_toNat] at hascii
  exact hascii h

theorem dropName?_eq_some_iff {name rest : List Char} : dropName? name text = some rest ↔
    ∃ written, text = written ++ rest ∧ written.map fold = name := by
  simp only [dropName?, Option.map_eq_some_iff, Text.dropStart?_eq_some_iff]
  constructor
  · rintro ⟨more, hmore, rfl⟩
    have hlength := congrArg List.length hmore
    simp only [List.length_map, List.length_take, List.length_append] at hlength
    obtain rfl : more = [] := List.eq_nil_of_length_eq_zero (by omega)
    exact ⟨text.take name.length, (List.take_append_drop _ _).symm, by rw [hmore, List.append_nil]⟩
  · rintro ⟨written, rfl, rfl⟩
    exact ⟨[], by simp, by simp⟩

/-- A name is called in front of a text as it is written there. -/
def CalledAs (name text written : List Char) : Prop :=
  written.map fold = name ∧
    ∃ blanks rest, text = written ++ (blanks ++ '(' :: rest) ∧ ∀ c ∈ blanks, Text.isBlank c = true

theorem calls_iff {name : List Char} : calls name text = true ↔ ∃ written, CalledAs name text written := by
  rw [calls]
  constructor
  · intro h
    split at h
    · next rest hrest =>
      obtain ⟨written, rfl, hname⟩ := dropName?_eq_some_iff.1 hrest
      obtain ⟨after, hafter⟩ : ∃ after, rest.dropWhile Text.isBlank = '(' :: after := by
        cases hd : rest.dropWhile Text.isBlank with
        | nil => simp [hd] at h
        | cons c after =>
          obtain rfl : c = '(' := by simpa [hd] using h
          exact ⟨after, rfl⟩
      refine ⟨written, hname, rest.takeWhile Text.isBlank, after, ?_, fun _ => Text.of_mem_takeWhile⟩
      rw [← hafter, List.takeWhile_append_dropWhile]
    · cases h
  · rintro ⟨written, hname, blanks, rest, rfl, hblanks⟩
    rw [dropName?_eq_some_iff.2 ⟨written, rfl, hname⟩]
    have hrest : (blanks ++ '(' :: rest).dropWhile Text.isBlank = '(' :: rest :=
      Text.dropWhile_append_of_stops hblanks (Text.stops_cons.2 (by decide))
    simp [hrest]

/-- A name ends where a blank or the parenthesis stands, so it is written in one way. -/
theorem CalledAs.written_eq {name : String} (hn : name ∈ deniedFunctions)
    (h : CalledAs name.toList text written) : written = text.takeWhile isWritten := by
  obtain ⟨hname, blanks, rest, rfl, hblanks⟩ := h
  have hwritten : ∀ c ∈ written, isWritten c = true := by
    intro c hc
    refine IsNameChar.isWritten (isNameChar_of_denied name hn _ ?_)
    rw [← hname]
    exact List.mem_map_of_mem hc
  have hstops : Text.Stops isWritten (blanks ++ '(' :: rest) := by
    cases blanks with
    | nil => exact Text.stops_cons.2 (by decide)
    | cons c blanks => exact Text.stops_cons.2 (by simp [isWritten, hblanks c List.mem_cons_self])
  exact (Text.takeWhile_append_of_stops hwritten hstops).symm

theorem CalledAs.take_eq {name : String} (h : CalledAs name.toList text written) :
    text.take name.length = written := by
  obtain ⟨hname, blanks, rest, rfl, -⟩ := h
  have hlength : name.length = written.length := by
    rw [← String.length_toList, ← hname, List.length_map]
  rw [hlength, List.take_left]

theorem calledAt?_eq_some_iff : calledAt? text = some written ↔
    ∃ name ∈ deniedFunctions, CalledAs name.toList text written := by
  have hfound : ∀ {name : String}, deniedFunctions.find? (fun name => calls name.toList text) = some name →
      ∃ written, CalledAs name.toList text written := fun hfind =>
    calls_iff.1 (List.find?_some (p := fun name : String => calls name.toList text) hfind)
  rw [calledAt?, Option.map_eq_some_iff]
  constructor
  · rintro ⟨name, hfind, rfl⟩
    obtain ⟨written, hcalled⟩ := hfound hfind
    exact ⟨name, List.mem_of_find?_eq_some hfind, hcalled.take_eq ▸ hcalled⟩
  · rintro ⟨name, hn, hcalled⟩
    have hsome : (deniedFunctions.find? fun name => calls name.toList text).isSome = true :=
      List.find?_isSome.2 ⟨name, hn, calls_iff.2 ⟨written, hcalled⟩⟩
    obtain ⟨other, hfind⟩ := Option.isSome_iff_exists.1 hsome
    obtain ⟨written', hcalled'⟩ := hfound hfind
    refine ⟨other, hfind, hcalled'.take_eq.trans ?_⟩
    rw [hcalled'.written_eq (List.mem_of_find?_eq_some hfind), hcalled.written_eq hn]

theorem denied_ne_nil : ∀ name ∈ deniedFunctions, name.toList ≠ [] := by decide

/-- Where no word goes on, a call begins with what the gate takes for one. -/
theorem calls_iff_calledAt? (before : List Char) : Calls before text written ↔
    before.getLast?.any Text.isWordChar = false ∧ calledAt? text = some written := by
  rw [calledAt?_eq_some_iff]
  -- the name that begins there begins with a word character
  have hword : ∀ name ∈ deniedFunctions, CalledAs name.toList text written →
      text.head?.any Text.isWordChar = true := by
    rintro name hn ⟨hname, blanks, rest, rfl, -⟩
    cases written with
    | nil => exact absurd hname.symm (denied_ne_nil name hn)
    | cons c written =>
      have hc : IsNameChar (fold c) := isNameChar_of_denied name hn _ (by simp [← hname])
      have := hc.isWritten
      simp only [isWritten, Bool.and_eq_true] at this
      simpa using this.1.1
  have hname : ∀ name ∈ deniedFunctions, (written.map fold = name.toList ↔
      written.map Text.simpleFold = name.toList.map Text.simpleFold) := fun name hn =>
    map_fold_eq_iff (isNameChar_of_denied name hn)
  constructor
  · rintro ⟨⟨name, hn, hfolded⟩, hstands, hbounded⟩
    have hcalled : CalledAs name.toList text written := ⟨(hname name hn).2 hfolded, hstands⟩
    refine ⟨?_, name, hn, hcalled⟩
    rw [Text.IsWordBoundary, hword name hn hcalled] at hbounded
    simpa using hbounded
  · rintro ⟨hfree, name, hn, hcalled⟩
    refine ⟨⟨name, hn, (hname name hn).1 hcalled.1⟩, hcalled.2, ?_⟩
    rw [Text.IsWordBoundary, hword name hn hcalled, hfree]
    decide

theorem Calls.unique {before : List Char} (h : Calls before text written)
    (h' : Calls before text written') : written = written' := by
  have hat := ((calls_iff_calledAt? before).1 h).2
  rw [((calls_iff_calledAt? before).1 h').2] at hat
  exact (Option.some.inj hat).symm

theorem FirstCall.unique (h : FirstCall text written) (h' : FirstCall text written') :
    written = written' := by
  obtain ⟨before, after, rfl, hcalls, hfirst⟩ := h
  obtain ⟨before', after', htext, hcalls', hfirst'⟩ := h'
  have hlength := Nat.le_antisymm (hfirst _ _ _ htext hcalls') (hfirst' _ _ _ rfl hcalls)
  obtain ⟨rfl, rfl⟩ := List.append_inj htext hlength
  exact hcalls.unique hcalls'

/-- Behind what was read no call begins. -/
def Callless (before text : List Char) : Prop :=
  ∀ front after written, text = front ++ after → ¬ Calls (before ++ front) after written

theorem callless_cons (before : List Char) : Callless before (c :: text) ↔
    (∀ written, ¬ Calls before (c :: text) written) ∧ Callless (before ++ [c]) text := by
  constructor
  · intro h
    refine ⟨fun written hcalls => h [] _ written rfl (by simpa using hcalls), ?_⟩
    rintro front after written rfl hcalls
    exact h (c :: front) after written rfl (by simpa using hcalls)
  · rintro ⟨hhere, hlater⟩ front after written htext hcalls
    cases front with
    | nil => exact hhere written (by simpa [htext] using hcalls)
    | cons d front =>
      obtain ⟨rfl, htail⟩ := List.cons.inj htext
      exact hlater front after written htail (by simpa using hcalls)

/-- Behind what was read this is the leftmost call. -/
def FirstCallFrom (before text written : List Char) : Prop :=
  ∃ front after, text = front ++ after ∧ Calls (before ++ front) after written ∧
    ∀ front' after' written', text = front' ++ after' → Calls (before ++ front') after' written' →
      front.length ≤ front'.length

theorem FirstCallFrom.cons {before : List Char} (h : FirstCallFrom (before ++ [c]) text written)
    (hfree : ∀ written, ¬ Calls before (c :: text) written) : FirstCallFrom before (c :: text) written := by
  obtain ⟨front, after, rfl, hcalls, hfirst⟩ := h
  refine ⟨c :: front, after, rfl, by simpa using hcalls, fun front' after' written' htext hcalls' => ?_⟩
  cases front' with
  | nil => exact absurd (by simpa [htext] using hcalls') (hfree written')
  | cons d front' =>
    obtain ⟨rfl, htail⟩ := List.cons.inj htext
    exact Nat.succ_le_succ (hfirst front' after' written' htail (by simpa using hcalls'))

/-- What the gate finds behind what was read is the leftmost call. -/
theorem denied?_spec (before text : List Char) :
    match denied? (before.getLast?.any Text.isWordChar) text with
    | none => Callless before text
    | some written => FirstCallFrom before text written := by
  induction text generalizing before with
  | nil =>
    intro front after written htext hcalls
    obtain ⟨rfl, rfl⟩ := List.append_eq_nil_iff.1 htext.symm
    obtain ⟨blanks, rest, hstands, -⟩ := hcalls.stands
    simp at hstands
  | cons c text ih =>
    have ih := ih (before ++ [c])
    rw [List.getLast?_concat, Option.any_some] at ih
    have hhere : ∀ written, Calls before (c :: text) written ↔
        (if before.getLast?.any Text.isWordChar then none else calledAt? (c :: text)) = some written := by
      intro written
      rw [calls_iff_calledAt?]
      split <;> simp_all
    rw [denied?]
    cases hfound : (if before.getLast?.any Text.isWordChar then none else calledAt? (c :: text)) with
    | some written =>
      have hcalls := (hhere written).2 hfound
      exact ⟨[], c :: text, rfl, by simpa using hcalls, fun _ _ _ _ _ => Nat.zero_le _⟩
    | none =>
      have hfree : ∀ written, ¬ Calls before (c :: text) written := fun written hcalls => by
        rw [hhere, hfound] at hcalls
        cases hcalls
      dsimp only
      cases hrest : denied? (Text.isWordChar c) text with
      | none =>
        rw [hrest] at ih
        exact (callless_cons before).2 ⟨hfree, ih⟩
      | some written =>
        rw [hrest] at ih
        exact ih.cons hfree

theorem denied?_eq_none_iff : denied? false text = none ↔ Callless [] text := by
  have hspec := denied?_spec [] text
  rw [List.getLast?_nil, Option.any_none] at hspec
  constructor
  · intro h
    rwa [h] at hspec
  · intro h
    cases hfound : denied? false text with
    | none => rfl
    | some written =>
      rw [hfound] at hspec
      obtain ⟨front, after, htext, hcalls, -⟩ := hspec
      exact absurd hcalls (h front after written htext)

theorem denied?_eq_some_iff : denied? false text = some written ↔ FirstCall text written := by
  have hspec := denied?_spec [] text
  rw [List.getLast?_nil, Option.any_none] at hspec
  constructor
  · intro h
    rwa [h] at hspec
  · intro h
    cases hfound : denied? false text with
    | none =>
      obtain ⟨before, after, htext, hcalls, -⟩ := h
      exact absurd hcalls (denied?_eq_none_iff.1 hfound before after written htext)
    | some written' =>
      rw [hfound] at hspec
      rw [FirstCall.unique hspec h]

end Gate

theorem render_eq_rejected_iff {name text function : String} {bindings : Record} :
    render name text bindings = .error (.rejected function) ↔ Gate.check text = some function := by
  rw [render]
  cases hcheck : Gate.check text with
  | some found => simp
  | none =>
    dsimp only
    split
    · simp
    · split <;> simp

namespace Gate

/-- The gate looks into the regions of a text that are read from left to right. It lets the text pass exactly when no
denied function is called in any of them, and otherwise it names the function, as it is written, of the leftmost
call in the first region that has one. Rendering refuses a text exactly when the gate does. -/
theorem check_names_first_call (text : String) :
    ∃ bodies, (∀ bodies', Regions text.toList bodies' ↔ bodies' = bodies) ∧
      (check text = none ↔
        ∀ body ∈ bodies, ∀ before after written, body = before ++ after → ¬ Calls before after written) ∧
      (∀ function, check text = some function ↔
        ∃ earlier body later, bodies = earlier ++ body :: later ∧ FirstCall body function.toList ∧
          ∀ other ∈ earlier, ∀ before after written, other = before ++ after →
            ¬ Calls before after written) ∧
      ∀ name bindings function,
        render name text bindings = .error (.rejected function) ↔ check text = some function := by
  have hregions := regions_regions text.toList
  refine ⟨regions text.toList, fun bodies' => ⟨fun h => h.unique hregions, ?_⟩, ?_, fun function => ?_,
    fun name bindings function => render_eq_rejected_iff⟩
  · rintro rfl
    exact hregions
  · rw [check, Option.map_eq_none_iff, List.findSome?_eq_none_iff]
    exact forall₂_congr fun body _ => denied?_eq_none_iff
  · rw [check, Option.map_eq_some_iff]
    constructor
    · rintro ⟨written, hfound, rfl⟩
      obtain ⟨earlier, body, later, hbodies, hbody, hearlier⟩ := List.findSome?_eq_some_iff.1 hfound
      refine ⟨earlier, body, later, hbodies, ?_, fun other hm => denied?_eq_none_iff.1 (hearlier other hm)⟩
      rw [String.toList_ofList]
      exact denied?_eq_some_iff.1 hbody
    · rintro ⟨earlier, body, later, hbodies, hbody, hearlier⟩
      have hfound := List.findSome?_eq_some_iff.2 ⟨earlier, body, later, hbodies,
        denied?_eq_some_iff.2 hbody, fun other hm => denied?_eq_none_iff.2 (hearlier other hm)⟩
      exact ⟨function.toList, hfound, String.ofList_toList⟩

-- The first mark is not closed, so the region is that of the second.
example : check "\x7b% a \x7b\x7b my_exec(1) ~ \u017Fystem (2) \x7d\x7d" = some "\u017Fystem" := by
  decide +kernel

end Gate

end Template

end Galley
