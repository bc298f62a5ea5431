import Galley.Proofs.Template.NodeCalls
import Galley.Template.Render

/-! # What the gate covers

The gate cuts a text at the first closing mark, wherever it stands, and looks for names where a word
begins. Where nothing between the opening mark and a call drifts from that, the call is found. -/

namespace Galley.Template

/-- The gate loses a call behind this stretch of a tag: a closing mark stands in it, so it must be in
a string, or the word `in` touches the name. -/
def Hides (inside : List Char) : Prop :=
  (∃ marks ∈ Gate.marks, marks.2 <:+: inside) ∨ ['i', 'n'] <:+ inside

namespace Gate

open Lexeme (isSpace)

/-- A word may begin after this text. -/
def Clear (before : List Char) : Prop := ∀ c, before.getLast? = some c → Text.isWordChar c = false

variable {name text body rest front inner inside call after : List Char} {tag m : List Char × List Char}

/-! ## Calls at the front of a text -/

theorem fold_denied : ∀ name ∈ deniedFunctions, name.toList.map fold = name.toList := by decide

theorem isBlank_of_isSpace {c : Char} (h : isSpace c = true) : Text.isBlank c = true := by
  simp only [isSpace, Bool.or_eq_true, beq_iff_eq] at h
  rcases h with ((rfl | rfl) | rfl) | rfl <;> decide

theorem calls_of_name {name : String} (hn : name ∈ deniedFunctions) {blanks : List Char}
    (hb : ∀ c ∈ blanks, isSpace c = true) :
    calls name.toList (name.toList ++ blanks ++ '(' :: after) = true := by
  have hdrop : dropName? name.toList (name.toList ++ blanks ++ '(' :: after) =
      some (blanks ++ '(' :: after) := by
    have hstart : Text.dropStart? name.toList (name.toList.map fold) = some [] :=
      Text.dropStart?_eq_some_iff.2 (by simp [fold_denied name hn])
    simp [dropName?, List.append_assoc, hstart]
  have hrest : (blanks ++ '(' :: after).dropWhile Text.isBlank = '(' :: after :=
    Text.dropWhile_append_of_stops (fun c hc => isBlank_of_isSpace (hb c hc))
      (Text.stops_cons.2 (by decide))
  rw [calls, hdrop]
  simp [hrest]

theorem calledAt?_isSome {name : String} (hn : name ∈ deniedFunctions)
    (hc : calls name.toList text = true) : (calledAt? text).isSome = true := by
  simp only [calledAt?, Option.isSome_map, List.find?_isSome]
  exact ⟨name, hn, hc⟩

theorem denied?_isSome {name : String} (hn : name ∈ deniedFunctions) {blanks : List Char}
    (hb : ∀ c ∈ blanks, isSpace c = true) (before : List Char) (inWord : Bool) (hc : Clear before)
    (hw : before = [] → inWord = false) :
    (denied? inWord (before ++ (name.toList ++ blanks ++ '(' :: after))).isSome = true := by
  induction before generalizing inWord with
  | nil =>
    obtain rfl := hw rfl
    have hat : (calledAt? (name.toList ++ blanks ++ '(' :: after)).isSome = true :=
      calledAt?_isSome hn (calls_of_name hn hb)
    obtain ⟨found, hf⟩ := Option.isSome_iff_exists.1 hat
    cases htext : name.toList ++ blanks ++ '(' :: after with
    | nil => simp at htext
    | cons c text =>
      rw [htext] at hf
      simp [denied?, hf]
  | cons c before ih =>
    rw [List.cons_append, denied?]
    split
    · rfl
    · refine ih _ (fun d hd => hc d ?_) fun he => hc c (by simp [he])
      rw [List.getLast?_cons, hd]
      rfl

/-! ## Regions -/

theorem splitAtFirst?_isSome {pattern : List Char} (h : pattern <:+: text) :
    (Text.splitAtFirst? pattern text).isSome = true := by
  induction text with
  | nil =>
    obtain rfl := List.eq_nil_of_infix_nil h
    rfl
  | cons c text ih =>
    rw [Text.splitAtFirst?]
    split
    · rfl
    · next hd =>
      rw [Option.isSome_map]
      rcases List.infix_cons_iff.1 h with ⟨after, ha⟩ | h
      · simp [Text.dropStart?_eq_some_iff.2 ha.symm] at hd
      · exact ih h

theorem region?_spec (h : region? text = some (body, rest)) :
    ∃ marks ∈ Gate.marks, text = marks.1 ++ body ++ marks.2 ++ rest := by
  simp only [region?] at h
  obtain ⟨⟨opening, closing⟩, hm, h⟩ := List.exists_of_findSome?_eq_some h
  dsimp only at h
  split at h
  · next after hd =>
    refine ⟨_, hm, ?_⟩
    rw [Text.dropStart?_eq_some_iff.1 hd, Text.eq_of_splitAtFirst? h]
    simp
  · cases h

theorem tag_mem_marks : ∀ tag ∈ tagMarks, tag ∈ marks := by decide

theorem region?_isSome (ht : tag ∈ tagMarks) (h : tag.2 <:+: rest) :
    (region? (tag.1 ++ rest)).isSome = true := by
  simp only [region?, List.findSome?_isSome_iff]
  refine ⟨tag, tag_mem_marks tag ht, ?_⟩
  simpa [Text.dropStart?_eq_some_iff.2 rfl] using splitAtFirst?_isSome h

theorem regions_of_region? (h : region? text = some (body, rest)) :
    regions text = body :: regions rest := by
  rw [regions]
  split
  · next hr =>
    rw [h] at hr
    cases hr
    rfl
  · next hr => simp [h] at hr

theorem regions_of_none {c : Char} (h : region? (c :: text) = none) :
    regions (c :: text) = regions text := by
  rw [regions]
  split
  · next hr => simp [h] at hr
  · rfl

/-- A stretch of a text that begins with the opening mark of a tag, ends with the parenthesis of a
call and has no closing mark of the gate in it. -/
structure Stretch (tag : List Char × List Char) (inner : List Char) : Prop where
  mem : tag ∈ tagMarks
  called : ∃ before, inner = before ++ ['(']
  unclosed : ∀ marks ∈ Gate.marks, ¬ marks.2 <:+: tag.1 ++ inner

theorem head_of_tag (ht : tag ∈ tagMarks) :
    ∃ c, tag.1 = ['\x7b', c] ∧ Text.isWordChar c = false ∧ c ≠ '!' := by
  simp only [tagMarks, List.mem_cons, List.not_mem_nil, or_false] at ht
  rcases ht with rfl | rfl
  · exact ⟨'\x7b', rfl, by decide, by decide⟩
  · exact ⟨'%', rfl, by decide, by decide⟩

theorem closing_chars : ∀ m ∈ marks, '\x7b' ∉ m.2 ∧ '(' ∉ m.2 := by decide

theorem opening_length : ∀ m ∈ marks, m.1.length ≤ 2 ∨ m.1 = ['\x7b', '!', '!'] := by decide

/-- A closing mark that does not end before a stretch ends behind it. -/
theorem Stretch.before_closing (h : Stretch tag inner) (hm : m ∈ marks)
    (ht : body ++ m.2 ++ rest = front ++ (tag.1 ++ inner) ++ after) :
    (∃ front', front = body ++ m.2 ++ front' ∧ rest = front' ++ (tag.1 ++ inner) ++ after) ∨
      ∃ y, body = front ++ (tag.1 ++ inner) ++ y := by
  obtain ⟨c, htag, -, -⟩ := head_of_tag h.mem
  obtain ⟨hbrace, hparen⟩ := closing_chars m hm
  rw [List.append_assoc, List.append_assoc front] at ht
  rcases List.append_eq_append_iff.1 ht with ⟨a, rfl, ha⟩ | ⟨b, rfl, hb⟩
  · rcases List.append_eq_append_iff.1 ha with ⟨a', rfl, rfl⟩ | ⟨b, hab, hb⟩
    · exact .inl ⟨a', by simp, by simp⟩
    · cases b with
      | nil => exact .inl ⟨[], by simpa using hab.symm, by simpa using hb.symm⟩
      | cons d b =>
        obtain rfl : '\x7b' = d := by simpa [htag] using congrArg List.head? hb
        exact absurd (by simp [hab]) hbrace
  · rw [← List.append_assoc] at hb
    rcases List.append_eq_append_iff.1 hb with ⟨a, ha, rfl⟩ | ⟨b', hb', -⟩
    · rcases List.append_eq_append_iff.1 ha with ⟨y, hy, hm'⟩ | ⟨y, rfl, -⟩
      · cases List.eq_nil_or_concat y with
        | inl hnil => exact .inr ⟨[], by simp [hy, hnil]⟩
        | inr hlast =>
          obtain ⟨y', d, rfl⟩ := hlast
          obtain ⟨before, rfl⟩ := h.called
          obtain rfl : '(' = d := by simpa using congrArg List.getLast? hy
          exact absurd (by simp [hm']) hparen
      · exact .inr ⟨y, by simp⟩
    · exact absurd ⟨b, b', hb'.symm⟩ (h.unclosed m hm)

/-- A region that does not end before a stretch has all of it. -/
theorem Stretch.within (h : Stretch tag inner) (hm : m ∈ marks)
    (ht : m.1 ++ body ++ m.2 ++ rest = front ++ (tag.1 ++ inner) ++ after) :
    (∃ front', front = m.1 ++ body ++ m.2 ++ front' ∧ rest = front' ++ (tag.1 ++ inner) ++ after) ∨
      ∃ x y, body = x ++ inner ++ y ∧ Clear x := by
  refine (h.before_closing hm ht).imp_right fun ⟨y, hy⟩ => ?_
  obtain ⟨c, htag, hc, hbang⟩ := head_of_tag h.mem
  rw [← List.append_assoc, List.append_assoc] at hy
  rcases List.append_eq_append_iff.1 hy with ⟨x, hx, rfl⟩ | ⟨b, hb, hrest⟩
  · refine ⟨x, y, by simp, fun d hd => ?_⟩
    have hlast : (m.1 ++ x).getLast? = some c := by simp [← hx, htag]
    obtain rfl : d = c := by simpa [List.getLast?_append, hd] using hlast
    exact hc
  · obtain rfl : b = [] := by
      have hlen := congrArg List.length hb
      rcases opening_length m hm with hshort | hbangs
      · simp only [htag, List.length_append, List.length_cons, List.length_nil] at hlen
        exact List.eq_nil_of_length_eq_zero (by omega)
      · rw [hbangs, htag] at hb
        rcases front with _ | ⟨d, front⟩
        · obtain ⟨-, hc', -⟩ : True ∧ '!' = c ∧ ['!'] = b := by simpa using hb
          exact absurd hc'.symm hbang
        · obtain ⟨-, hb⟩ := List.cons.inj hb
          have hmem : '\x7b' ∈ ['!', '!'] := by simp [hb]
          simp at hmem
    exact ⟨[], y, by simpa using hrest.symm, by simp [Clear]⟩

theorem Stretch.exists_region (h : Stretch tag inner) (hc : tag.2 <:+: after)
    (ht : text = front ++ (tag.1 ++ inner) ++ after) :
    ∃ body ∈ regions text, ∃ x y, body = x ++ inner ++ y ∧ Clear x := by
  induction text using regions.induct generalizing front with
  | case1 text body rest hr ih =>
    rw [regions_of_region? hr]
    obtain ⟨m, hm, rfl⟩ := region?_spec hr
    rcases h.within hm ht with ⟨front', -, hrest⟩ | hfound
    · obtain ⟨body', hmem, hbody⟩ := ih hrest
      exact ⟨body', List.mem_cons_of_mem _ hmem, hbody⟩
    · exact ⟨body, List.mem_cons_self, hfound⟩
  | case2 =>
    obtain ⟨c, htag, -⟩ := head_of_tag h.mem
    simp [htag] at ht
  | case3 c text hr ih =>
    rw [regions_of_none hr]
    cases front with
    | nil =>
      have hsome : (region? (tag.1 ++ (inner ++ after))).isSome = true :=
        region?_isSome h.mem (hc.trans (List.suffix_append _ _).isInfix)
      rw [ht, List.nil_append, List.append_assoc] at hr
      rw [hr] at hsome
      cases hsome
    | cons d front => exact ih (List.cons.inj ht).2

theorem brace_not_mem_call {name : String} (hn : name ∈ deniedFunctions) {blanks : List Char}
    (hb : ∀ c ∈ blanks, isSpace c = true) : '\x7d' ∉ name.toList ++ blanks ++ ['('] := by
  have hname : ∀ name ∈ deniedFunctions, '\x7d' ∉ name.toList := by decide
  have hblanks : '\x7d' ∉ blanks := fun h => absurd (hb _ h) (by decide)
  simp [hname name hn, hblanks]

theorem closing_ends (hm : m ∈ marks) : m.2.getLast? = some '\x7d' := by
  simp only [marks, List.mem_cons, List.not_mem_nil, or_false] at hm
  rcases hm with rfl | rfl | rfl <;> rfl

/-- The one closing mark that could begin in an opening mark. -/
theorem closing_of_head (hm : m ∈ marks) (ht : tag ∈ tagMarks) {c : Char} (hc : m.2.head? = some c)
    (hmem : c ∈ tag.1) : m.2 = ['%', '\x7d'] ∧ tag.1 = ['\x7b', '%'] := by
  simp only [marks, tagMarks, List.mem_cons, List.not_mem_nil, or_false] at hm ht
  rcases hm with rfl | rfl | rfl
  all_goals
    obtain rfl := Option.some.inj hc
    rcases ht with rfl | rfl <;> simp_all

theorem not_code_of_brace (h : Code ('\x7d' :: text)) : False := by
  cases h with
  | char hc _ => exact absurd hc (by decide)
  | string hq _ _ => exact absurd hq (by decide)

/-- A closing mark in a tag up to a call stands between the opening mark and the name. -/
theorem closing_within (hm : m ∈ marks) (ht : tag ∈ tagMarks) (hinside : Code inside)
    (hcall : '\x7d' ∉ call) (h : m.2 <:+: tag.1 ++ (inside ++ call)) : m.2 <:+: inside := by
  obtain ⟨x, y, hxy⟩ := h
  have hfront : ∃ a, tag.1 ++ inside = x ++ m.2 ++ a := by
    rw [← List.append_assoc] at hxy
    rcases List.append_eq_append_iff.1 hxy with ⟨a, ha, -⟩ | ⟨b, hb, hcall'⟩
    · exact ⟨a, ha⟩
    · rcases List.eq_nil_or_concat b with rfl | ⟨b, d, rfl⟩
      · exact ⟨[], by simpa using hb.symm⟩
      · have hlast : (x ++ m.2).getLast? = some '\x7d' := by
          simp [List.getLast?_append, closing_ends hm]
        obtain rfl : d = '\x7d' := by simpa [hb] using hlast
        exact absurd (by simp [hcall']) hcall
  have hlast := closing_ends hm
  obtain ⟨a, ha⟩ := hfront
  rw [List.append_assoc] at ha
  rcases List.append_eq_append_iff.1 ha with ⟨x', rfl, hin⟩ | ⟨b, hb, hin⟩
  · exact ⟨x', a, by simp [hin]⟩
  · cases b with
    | nil => exact ⟨[], a, by simpa using hin⟩
    | cons d b =>
      have hhead : m.2.head? = some d := by
        cases hm2 : m.2 with
        | nil => simp [hm2] at hlast
        | cons e rest => simpa [hm2] using congrArg List.head? hin
      obtain ⟨hclose, hopen⟩ := closing_of_head hm ht hhead (by simp [hb])
      rw [hclose, List.cons_append, List.cons_append, List.nil_append, List.cons_append,
        List.cons.injEq] at hin
      obtain ⟨rfl, hin⟩ := hin
      rw [hopen] at hb
      obtain rfl : b = [] := by
        have hlen := congrArg List.length hb
        cases x with
        | nil => exact absurd (List.cons.inj hb).1 (by decide)
        | cons e x =>
          simp only [List.length_cons, List.length_append, List.length_nil] at hlen
          exact List.eq_nil_of_length_eq_zero (by omega)
      rw [List.nil_append] at hin
      exact (not_code_of_brace (hin ▸ hinside)).elim

end Gate

/-- A call that nothing hides is found, so the text is refused. -/
theorem CallSite.hides_or_found {text : String} {name : String} {inside : List Char}
    (h : CallSite text.toList name inside) (hn : name ∈ Gate.deniedFunctions) :
    Hides inside ∨ (Gate.check text).isSome = true := by
  by_cases hhides : Hides inside
  · exact .inl hhides
  refine .inr ?_
  obtain ⟨front, tag, blanks, after, htag, ht, hb, hc⟩ := h.stands
  obtain ⟨hunclosed, hin⟩ := not_or.1 hhides
  have hstretch : Gate.Stretch tag (inside ++ (name.toList ++ blanks ++ ['('])) := by
    refine ⟨htag, ⟨inside ++ name.toList ++ blanks, by simp⟩, fun m hm hin => hunclosed ?_⟩
    exact ⟨m, hm, Gate.closing_within hm htag h.code (Gate.brace_not_mem_call hn hb) hin⟩
  have hlaid : text.toList =
      front ++ (tag.1 ++ (inside ++ (name.toList ++ blanks ++ ['(']))) ++ after := by simp [ht]
  obtain ⟨body, hbody, x, y, hx, hxclear⟩ := hstretch.exists_region hc hlaid
  have hbefore : Gate.Clear (x ++ inside) := by
    intro c hlast
    cases hlast' : inside.getLast? with
    | none =>
      rw [List.getLast?_append, hlast'] at hlast
      exact hxclear c hlast
    | some d =>
      obtain rfl : d = c := by simpa [List.getLast?_append, hlast'] using hlast
      exact (h.joint d hlast').resolve_right hin
  have hfound : (Gate.denied? false body).isSome = true := by
    have hbody : body = x ++ inside ++ (name.toList ++ blanks ++ '(' :: y) := by simp [hx]
    rw [hbody]
    exact Gate.denied?_isSome hn hb (x ++ inside) false hbefore fun _ => rfl
  rw [Gate.check, Option.isSome_map, List.findSome?_isSome_iff]
  exact ⟨body, hbody, hfound⟩

/-- The gate covers what a template calls, but for calls that a closing mark in a string or the word
`in` hides from it: a template that calls a denied function at a place where nothing does is
refused, whatever its name and its bindings. -/
theorem denied_calls_refused {text name : String} (hcalled : name ∈ calledFunctions text)
    (hdenied : name ∈ Gate.deniedFunctions) :
    (∃ inside, CallSite text.toList name inside) ∧
      ∀ inside, CallSite text.toList name inside →
        Hides inside ∨ ∃ found, ∀ source bindings, render source text bindings = .error (.rejected found) := by
  refine ⟨Parser.exists_callSite hcalled, fun inside hsite => ?_⟩
  refine (hsite.hides_or_found hdenied).imp_right fun hfound => ?_
  obtain ⟨found, hcheck⟩ := Option.isSome_iff_exists.1 hfound
  exact ⟨found, fun source bindings => by rw [render, hcheck]⟩

/-- A closing mark in a string: the gate lets the text pass, and its tree calls the function. -/
def hiddenCall : String := "\x7b\x7b \"\x7d\x7d\" ~ get_env(name=\"HOME\") \x7d\x7d"

theorem denied_calls_refused_hidden :
    "get_env" ∈ calledFunctions hiddenCall ∧ "get_env" ∈ Gate.deniedFunctions ∧
      Gate.check hiddenCall = none ∧
      (∃ inside, CallSite hiddenCall.toList "get_env" inside) ∧
      ∀ inside, CallSite hiddenCall.toList "get_env" inside →
        Hides inside ∨ ∃ found, ∀ source bindings,
          render source hiddenCall bindings = .error (.rejected found) := by
  have hcalled : calledFunctions hiddenCall = ["get_env"] := by
    decide +kernel
  have hpassed : Gate.check hiddenCall = none := by decide +kernel
  have hmem : "get_env" ∈ Gate.deniedFunctions := by decide
  have hin : "get_env" ∈ calledFunctions hiddenCall := by simp [hcalled]
  exact ⟨hin, hmem, hpassed, denied_calls_refused hin hmem⟩

end Galley.Template
