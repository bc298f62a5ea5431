import Galley.Proofs.Template.Nearest
import Galley.Proofs.Text.Span
import Galley.Template.Render

/-! # Missing variables

When a template cannot be rendered, suggestions stand after the message exactly where it tells that a
variable is missing and some binding has a name near enough. The name is read from the message, where it ends
at the first backquote. So there are none for a variable with a backquote in its name. -/

namespace Galley

variable {text message name lead : List Char} {missing : String} {e : Template.Error}
  {names found : List String}

/-! ## Texts as they stand -/

namespace Text

theorem replaceAll_of_not_infix {pattern replacement : List Char} (hne : pattern ≠ [])
    (h : ¬ pattern <:+: text) : replaceAll pattern replacement text = text := by
  have hnone : splitAtFirst? pattern text = none := by
    cases hsplit : splitAtFirst? pattern text with
    | none => rfl
    | some parts => exact absurd ⟨_, _, (eq_of_splitAtFirst? hsplit).symm⟩ h
  have hpieces : splitAll pattern text = [text] := by
    rw [splitAll, if_neg (by simpa using hne)]
    cases text.length with
    | zero => rfl
    | succ fuel => rw [splitAllWithin, hnone]
  rw [replaceAll, hpieces, List.intercalate_singleton]

/-- The first character of the text is not blank. -/
def Leads (text : List Char) : Prop := ∃ c rest, text = c :: rest ∧ isBlank c = false

/-- The last character of the text is not blank. -/
def Ends (text : List Char) : Prop := ∃ c rest, text = rest ++ [c] ∧ isBlank c = false

theorem Leads.append (h : Leads text) (more : List Char) : Leads (text ++ more) := by
  obtain ⟨c, rest, rfl, hc⟩ := h
  exact ⟨c, rest ++ more, rfl, hc⟩

theorem Ends.append (h : Ends text) (more : List Char) : Ends (more ++ text) := by
  obtain ⟨c, rest, rfl, hc⟩ := h
  exact ⟨c, more ++ rest, (List.append_assoc more rest [c]).symm, hc⟩

theorem trim_of_leads {s : String} (h : Leads s.toList) (h' : Ends s.toList) : trim s = s := by
  obtain ⟨c, rest, hfront, hc⟩ := h
  obtain ⟨d, rest', hback, hd⟩ := h'
  have hdropFront : dropFront isBlank s.toList = s.toList := by
    rw [dropFront, hfront, List.dropWhile_cons_of_neg (by simp [hc])]
  have hdropBack : dropBack isBlank s.toList = s.toList := by
    rw [dropBack, hback, List.reverse_append, List.reverse_singleton, List.singleton_append,
      List.dropWhile_cons_of_neg (by simp [hd]), List.reverse_cons, List.reverse_reverse]
  rw [trim, hdropFront, hdropBack, String.ofList_toList]

end Text

namespace Template

/-! ## What a message tells -/

namespace Suggestion

/-- The text begins by telling that the variable of this name is missing. -/
structure MissingAt (text name : List Char) : Prop where
  notEmpty : name ≠ []
  unquoted : '\x60' ∉ name
  starts : "Variable ".toList ++ '\x60' :: (name ++ '\x60' :: " not found".toList) <+: text

/-- The message tells that the variable of this name is missing, and nothing of the kind before. -/
def FirstMissing (message name : List Char) : Prop :=
  ∃ text, text <:+ message ∧ MissingAt text name ∧
    ∀ earlier, earlier <:+ message → (∃ other, MissingAt earlier other) → earlier <:+ text

theorem startsWith_iff {start : List Char} : Text.startsWith start text = true ↔ start <+: text := by
  rw [Text.startsWith, Option.isSome_iff_exists]
  exact exists_congr fun rest => Text.dropStart?_eq_some_iff.trans eq_comm

/-- A name between backquotes is what stands before the first backquote after the opening one. -/
theorem quoted_prefix_iff {opening closing : List Char} :
    (∃ rest, text = opening ++ '\x60' :: rest ∧ rest.takeWhile (· ≠ '\x60') = name ∧
      '\x60' :: closing <+: rest.dropWhile (· ≠ '\x60')) ↔
    '\x60' ∉ name ∧ opening ++ '\x60' :: (name ++ '\x60' :: closing) <+: text := by
  constructor
  · rintro ⟨rest, rfl, rfl, after, hafter⟩
    refine ⟨fun hquote => by simpa using Text.of_mem_takeWhile hquote, after, ?_⟩
    have hrest := List.takeWhile_append_dropWhile (p := (· ≠ '\x60')) (l := rest)
    rw [← hafter] at hrest
    simpa using hrest
  · rintro ⟨hquote, after, rfl⟩
    have hrun : ∀ c ∈ name, decide (c ≠ '\x60') = true := fun c hc => by
      simpa using fun he : c = '\x60' => hquote (he ▸ hc)
    have hstops : Text.Stops (fun c => decide (c ≠ '\x60')) ('\x60' :: (closing ++ after)) :=
      Text.stops_cons.2 (by simp)
    refine ⟨name ++ '\x60' :: (closing ++ after), by simp, Text.takeWhile_append_of_stops hrun hstops, ?_⟩
    rw [Text.dropWhile_append_of_stops hrun hstops]
    exact ⟨after, rfl⟩

theorem missingAt_iff : MissingAt text name ↔ name ≠ [] ∧ '\x60' ∉ name ∧
    "Variable ".toList ++ '\x60' :: (name ++ '\x60' :: " not found".toList) <+: text :=
  ⟨fun h => ⟨h.notEmpty, h.unquoted, h.starts⟩, fun ⟨hne, hquote, hstart⟩ => ⟨hne, hquote, hstart⟩⟩

theorem toList_opening : "Variable \x60".toList = "Variable ".toList ++ ['\x60'] := by decide

theorem toList_closing : "\x60 not found".toList = '\x60' :: " not found".toList := by decide

theorem missingAt?_eq_some_iff : missingAt? text = some name ↔ MissingAt text name := by
  rw [missingAt_iff, ← quoted_prefix_iff]
  simp only [missingAt?, toList_opening, toList_closing]
  generalize "Variable ".toList = opening
  generalize " not found".toList = closing
  cases hdrop : Text.dropStart? (opening ++ ['\x60']) text with
  | none =>
    have hnone : ∀ rest, text ≠ opening ++ '\x60' :: rest := fun rest he => by
      have hrest : text = opening ++ ['\x60'] ++ rest := by simpa using he
      rw [Text.dropStart?_eq_some_iff.2 hrest] at hdrop
      cases hdrop
    simp [hnone]
  | some rest =>
    obtain rfl := Text.dropStart?_eq_some_iff.1 hdrop
    have hrest : ∀ rest', opening ++ ['\x60'] ++ rest = opening ++ '\x60' :: rest' ↔ rest' = rest := by
      simp [eq_comm]
    simp only [hrest, exists_eq_left, Option.ite_none_right_eq_some, Option.some.injEq,
      Bool.and_eq_true, Bool.not_eq_true', List.isEmpty_eq_false_iff, startsWith_iff]
    constructor
    · rintro ⟨⟨hne, hclose⟩, rfl⟩
      exact ⟨hne, rfl, hclose⟩
    · rintro ⟨hne, rfl, hclose⟩
      exact ⟨⟨hne, hclose⟩, rfl⟩

theorem firstMissing_here {other : List Char} (h : MissingAt message other) :
    FirstMissing message name ↔ MissingAt message name := by
  constructor
  · rintro ⟨text, htext, hname, hfirst⟩
    obtain rfl := htext.eq_of_length_le (hfirst message List.suffix_rfl ⟨other, h⟩).length_le
    exact hname
  · exact fun hname => ⟨message, List.suffix_rfl, hname, fun _ hearlier _ => hearlier⟩

theorem firstMissing_cons {c : Char} (h : ∀ other, ¬ MissingAt (c :: message) other) :
    FirstMissing (c :: message) name ↔ FirstMissing message name := by
  have hsuffix : ∀ text other, MissingAt text other → (text <:+ c :: message ↔ text <:+ message) :=
    fun text other hother => by
      rw [List.suffix_cons_iff]
      exact or_iff_right fun he => h other (he ▸ hother)
  refine exists_congr fun text => ?_
  constructor
  · rintro ⟨htext, hname, hfirst⟩
    refine ⟨(hsuffix _ _ hname).1 htext, hname, fun earlier hearlier ⟨other, hother⟩ => ?_⟩
    exact hfirst earlier ((hsuffix _ _ hother).2 hearlier) ⟨other, hother⟩
  · rintro ⟨htext, hname, hfirst⟩
    refine ⟨(hsuffix _ _ hname).2 htext, hname, fun earlier hearlier ⟨other, hother⟩ => ?_⟩
    exact hfirst earlier ((hsuffix _ _ hother).1 hearlier) ⟨other, hother⟩

theorem missing?_eq_some_iff : missing? message = some name ↔ FirstMissing message name := by
  induction message with
  | nil =>
    refine iff_of_false (by simp [missing?]) ?_
    rintro ⟨text, htext, hat, -⟩
    obtain rfl := List.suffix_nil.1 htext
    simpa using hat.starts
  | cons c message ih =>
    rw [missing?]
    cases hat : missingAt? (c :: message) with
    | some found =>
      rw [firstMissing_here (missingAt?_eq_some_iff.1 hat), ← missingAt?_eq_some_iff, hat]
      rfl
    | none =>
      refine ih.trans (firstMissing_cons fun other hother => ?_).symm
      rw [missingAt?_eq_some_iff.2 hother] at hat
      cases hat

theorem missing?_eq_none_iff : missing? message = none ↔ ∀ name, ¬ FirstMissing message name := by
  rw [Option.eq_none_iff_forall_not_mem]
  exact forall_congr' fun name => not_congr missing?_eq_some_iff

/-- What a message ends with when there are suggestions. -/
def mention : List String → String
  | [] => ""
  | found => " (did you mean: " ++ ", ".intercalate found ++ "?)"

theorem mention_eq_empty_iff : mention found = "" ↔ found = [] := by
  cases found with
  | nil => simp [mention]
  | cons first rest => simp [mention]

theorem describe_of_firstMissing {message : String} (names : List String)
    (h : FirstMissing message.toList missing.toList) :
    describe message names = message ++ mention (nearest missing names) := by
  rw [describe, missing?_eq_some_iff.2 h]
  simp only [String.ofList_toList]
  cases nearest missing names with
  | nil => exact String.append_empty.symm
  | cons first rest => simp only [mention, String.append_assoc]

theorem describe_of_none {message : String} (h : ∀ name, ¬ FirstMissing message.toList name) :
    describe message names = message := by
  rw [describe, missing?_eq_none_iff.2 h]

/-- What is told first is told where no backquote stands before. -/
theorem firstMissing_of_lead (after : List Char) (hlead : '\x60' ∉ lead) (hne : name ≠ [])
    (hname : '\x60' ∉ name) :
    FirstMissing
      (lead ++ ("Variable ".toList ++ '\x60' :: (name ++ '\x60' :: (" not found".toList ++ after)))) name := by
  have hopening : '\x60' ∉ "Variable ".toList := by decide
  have hat : MissingAt
      ("Variable ".toList ++ '\x60' :: (name ++ '\x60' :: (" not found".toList ++ after))) name :=
    ⟨hne, hname, after, by simp only [List.append_assoc, List.cons_append]⟩
  refine ⟨_, List.suffix_append lead _, hat, fun earlier ⟨before, hbefore⟩ ⟨other, hother⟩ => ?_⟩
  rcases List.append_eq_append_iff.1 hbefore with ⟨more, rfl, rfl⟩ | ⟨more, -, hmore⟩
  · -- Both begin with the opening up to its backquote, the first in what is left of the lead.
    obtain ⟨rest, hrest⟩ := hother.starts
    rw [List.append_assoc, List.cons_append, ← List.append_assoc more] at hrest
    have hfront : '\x60' ∉ more ++ "Variable ".toList := by
      simp only [List.mem_append, not_or] at hlead ⊢
      exact ⟨hlead.2, hopening⟩
    obtain ⟨hnone, -⟩ := Text.append_cons_inj hopening hfront hrest
    obtain rfl : more = [] := by simpa using hnone
    exact List.suffix_rfl
  · exact ⟨more, hmore.symm⟩

end Suggestion

/-! ## What an error tells -/

namespace Error

open Suggestion (FirstMissing)

theorem message_variableMissing (path : String) :
    (Error.variableMissing path).message = "Variable \x60" ++ path ++ "\x60 not found in context" := rfl

theorem message_elementMissing (path resolved : String) : (Error.elementMissing path resolved).message =
    "Variable \x60" ++ path ++ "\x60 not found in context : the evaluated version was \x60" ++
      resolved ++ "\x60. Maybe the index is out of bounds?" := rfl

theorem message_indexFailed (path : String) (cause : Error) : (Error.indexFailed path cause).message =
    "Variable " ++ path ++ " can not be evaluated because: " ++ cause.message := rfl

theorem message_callFailed (callee : Callee) (name : String) (causes : List String) :
    (Error.callFailed callee name causes).message = callee.title ++ " call '" ++ name ++ "' failed" := rfl

theorem messages_headline (text : String) : messages (.headline text) = [text] := rfl

theorem messages_callFailed (callee : Callee) (name : String) (causes : List String) :
    messages (.callFailed callee name causes) =
      (Error.callFailed callee name causes).message :: causes := rfl

theorem messages_ne_nil (e : Error) : e.messages ≠ [] := by
  cases e <;> exact List.cons_ne_nil _ _

/-- A lookup fails since a variable is missing: the one that is looked up, or one that an index in its path
asks for. `lead` is what the message tells before it. -/
inductive Lacks (missing : String) : String → Error → Prop where
  | path : Lacks missing "" (.variableMissing missing)
  | element (resolved : String) : Lacks missing "" (.elementMissing missing resolved)
  | index (path : String) {lead : String} {cause : Error} : Lacks missing lead cause →
    Lacks missing ("Variable " ++ path ++ " can not be evaluated because: " ++ lead) (.indexFailed path cause)

/-- A lookup fails so, on its own, in a calculation or in what is called. -/
inductive Misses (missing : String) : String → Error → Prop where
  | lookup {lead : String} {cause : Error} : Lacks missing lead cause → Misses missing lead cause
  | headline {lead : String} {cause : Error} : Lacks missing lead cause →
    Misses missing lead (.headline cause.message)
  | call (callee : Callee) (name : String) {lead : String} {cause : Error} : Misses missing lead cause →
    Misses missing (callee.title ++ " call '" ++ name ++ "' failed" ++ ": " ++ lead)
      (.callFailed callee name cause.messages)

theorem Lacks.messages_eq {lead : String} (h : Lacks missing lead e) : e.messages = [e.message] := by
  cases h <;> rfl

theorem Lacks.message_eq {lead : String} (h : Lacks missing lead e) :
    ∃ after, e.message = lead ++ "Variable \x60" ++ missing ++ "\x60 not found" ++ after := by
  induction h with
  | path =>
    have hclosing : "\x60 not found in context" = "\x60 not found" ++ " in context" := by decide
    refine ⟨" in context", ?_⟩
    simp only [message_variableMissing, hclosing, String.append_assoc, String.empty_append]
  | element resolved =>
    have hclosing : "\x60 not found in context : the evaluated version was \x60" =
        "\x60 not found" ++ " in context : the evaluated version was \x60" := by decide
    refine ⟨" in context : the evaluated version was \x60" ++ resolved ++
      "\x60. Maybe the index is out of bounds?", ?_⟩
    simp only [message_elementMissing, hclosing, String.append_assoc, String.empty_append]
  | index path _ ih =>
    obtain ⟨after, ih⟩ := ih
    exact ⟨after, by simp only [message_indexFailed, ih, String.append_assoc]⟩

theorem Lacks.leads {lead : String} (h : Lacks missing lead e) : Text.Leads e.message.toList := by
  have hopening : Text.Leads "Variable \x60".toList := ⟨'V', _, rfl, rfl⟩
  have hindex : Text.Leads "Variable ".toList := ⟨'V', _, rfl, rfl⟩
  cases h with
  | path =>
    simp only [message_variableMissing, String.toList_append, List.append_assoc, hopening.append]
  | element =>
    simp only [message_elementMissing, String.toList_append, List.append_assoc, hopening.append]
  | index =>
    simp only [message_indexFailed, String.toList_append, List.append_assoc, hindex.append]

theorem Lacks.ends {lead : String} (h : Lacks missing lead e) : Text.Ends e.message.toList := by
  induction h with
  | path =>
    rw [message_variableMissing, String.toList_append]
    exact Text.Ends.append ⟨'t', "\x60 not found in contex".toList, by decide, rfl⟩ _
  | element resolved =>
    rw [message_elementMissing, String.toList_append]
    exact Text.Ends.append ⟨'?', "\x60. Maybe the index is out of bounds".toList, by decide, rfl⟩ _
  | index path _ ih =>
    rw [message_indexFailed, String.toList_append]
    exact ih.append _

theorem Misses.joined {lead : String} (h : Misses missing lead e) :
    ∃ after, ": ".intercalate e.messages =
      lead ++ "Variable \x60" ++ missing ++ "\x60 not found" ++ after := by
  induction h with
  | lookup h =>
    rw [h.messages_eq, String.intercalate_singleton]
    exact h.message_eq
  | headline h =>
    rw [messages_headline, String.intercalate_singleton]
    exact h.message_eq
  | call callee name h ih =>
    obtain ⟨after, ih⟩ := ih
    refine ⟨after, ?_⟩
    rw [messages_callFailed, String.intercalate_cons_of_ne_nil (messages_ne_nil _), ih, message_callFailed]
    simp only [String.append_assoc]

theorem Misses.leads_ends {lead : String} (h : Misses missing lead e) :
    ∀ m ∈ e.messages, Text.Leads m.toList ∧ Text.Ends m.toList := by
  induction h with
  | lookup h =>
    rw [h.messages_eq, List.forall_mem_singleton]
    exact ⟨h.leads, h.ends⟩
  | headline h =>
    rw [messages_headline, List.forall_mem_singleton]
    exact ⟨h.leads, h.ends⟩
  | call callee name _ ih =>
    rw [messages_callFailed, List.forall_mem_cons, message_callFailed, String.toList_append]
    refine ⟨⟨?_, Text.Ends.append ⟨'d', "' faile".toList, by decide, rfl⟩ _⟩, ih⟩
    have htitle : Text.Leads callee.title.toList := by
      cases callee <;> exact ⟨_, _, rfl, rfl⟩
    simp only [String.toList_append, List.append_assoc, htitle.append]

/-- A message that does not name the template, and has no blanks around it, is shown as it is. -/
theorem tidy_eq {m : String} (hplain : ¬ textName.toList <:+: m.toList) (hleads : Text.Leads m.toList)
    (hends : Text.Ends m.toList) : tidy m = m := by
  have hkept : ∀ front replacement : String,
      Text.replaceAll (front ++ textName).toList replacement.toList m.toList = m.toList :=
    fun front replacement => by
      refine Text.replaceAll_of_not_infix (by simp [textName]) fun h => hplain ?_
      rw [String.toList_append] at h
      exact (List.suffix_append _ _).isInfix.trans h
  simp only [tidy, List.foldl_cons, List.foldl_nil, hkept, String.ofList_toList]
  exact Text.trim_of_leads hleads hends

theorem Misses.line_eq {lead : String} (h : Misses missing lead e)
    (hplain : ∀ m ∈ e.messages, ¬ textName.toList <:+: m.toList) :
    e.line = ": ".intercalate e.messages := by
  have htidy : e.messages.map tidy = e.messages := by
    refine (List.map_congr_left fun m hm => ?_).trans (List.map_id _)
    obtain ⟨hleads, hends⟩ := h.leads_ends m hm
    exact tidy_eq (hplain m hm) hleads hends
  rw [line, htidy, List.filter_eq_self.2]
  intro m hm
  obtain ⟨⟨c, rest, htext, -⟩, -⟩ := h.leads_ends m hm
  have hne : m ≠ "" := by
    rintro rfl
    cases htext
  simpa using hne

/-- Where a variable is missing, the line tells it, and it tells it first when no backquote stands in the name
nor before it. -/
theorem Misses.firstMissing {lead : String} (h : Misses missing lead e)
    (hplain : ∀ m ∈ e.messages, ¬ textName.toList <:+: m.toList) (hne : missing ≠ "")
    (hmissing : '\x60' ∉ missing.toList) (hlead : '\x60' ∉ lead.toList) :
    FirstMissing e.line.toList missing.toList := by
  obtain ⟨after, hjoined⟩ := h.joined
  rw [h.line_eq hplain, hjoined]
  simp only [String.toList_append, Suggestion.toList_opening, Suggestion.toList_closing]
  have hfirst := Suggestion.firstMissing_of_lead after.toList hlead (by simpa using hne) hmissing
  simpa using hfirst

end Error

/-! ## Failures -/

theorem render_eq_render_iff {name text template shown : String} {bindings : Record} :
    render name text bindings = .error (.render template shown) ↔
      template = name ∧ Gate.check text = none ∧ (bindings.isEmpty && !hasSyntax text) = false ∧
        ∃ e, evaluate text bindings = .error e ∧ shown = Suggestion.describe e.line bindings.keys := by
  rw [render]
  cases Gate.check text with
  | some function => simp
  | none =>
    cases bindings.isEmpty && !hasSyntax text with
    | true => simp
    | false =>
      cases evaluate text bindings with
      | ok printed => simp
      | error e => simp [eq_comm]

open Suggestion (Best FirstMissing mention nearest)
open Text.EditDistance (distance)

/-- The suggestions for a missing variable are the best of all names that are bound. A template that fails to
render shows them after its message, if there are any, where this is the variable that the message first tells to
be missing, and nothing stands after a message that tells of none. A variable that is missing is told first when
no backquote stands in its name nor in the message before it. -/
theorem suggestions_are_best (missing : String) (bindings : Record) :
    (∃ picked, Best missing bindings.keys picked ∧
      nearest missing bindings.keys = picked.map bindings.keys.get) ∧
    ∀ name text template shown, render name text bindings = .error (.render template shown) →
      ∃ e, evaluate text bindings = .error e ∧
        (FirstMissing e.line.toList missing.toList →
          shown = e.line ++ mention (nearest missing bindings.keys) ∧
          (shown = e.line ↔ nearest missing bindings.keys = [])) ∧
        ((∀ found, ¬ FirstMissing e.line.toList found) → shown = e.line) ∧
        ∀ lead, e.Misses missing lead → missing ≠ "" → '\x60' ∉ missing.toList →
          '\x60' ∉ lead.toList → (∀ m ∈ e.messages, ¬ Error.textName.toList <:+: m.toList) →
          FirstMissing e.line.toList missing.toList := by
  refine ⟨⟨_, Suggestion.best_chosen missing bindings.keys, Suggestion.nearest_eq missing _⟩, ?_⟩
  intro name text template shown h
  obtain ⟨-, -, -, e, he, rfl⟩ := render_eq_render_iff.1 h
  refine ⟨e, he, fun hfirst => ?_, Suggestion.describe_of_none, ?_⟩
  · have hshown := Suggestion.describe_of_firstMissing bindings.keys hfirst
    refine ⟨hshown, ?_⟩
    rw [hshown, String.append_eq_left_iff, Suggestion.mention_eq_empty_iff]
  · intro lead hmisses hne hmissing hlead hplain
    exact hmisses.firstMissing hplain hne hmissing hlead

/-- Whether a template fails at an index in a path, since a variable is missing. -/
def failsAtIndex (path missing : String) : Except Error String → Bool
  | .error (.indexFailed path' (.variableMissing missing')) => path' == path && missing' == missing
  | _ => false

theorem eq_of_failsAtIndex {path : String} {result : Except Error String}
    (h : failsAtIndex path missing result = true) :
    result = .error (.indexFailed path (.variableMissing missing)) := by
  rw [failsAtIndex.eq_def] at h
  split at h
  · obtain ⟨rfl, rfl⟩ : _ = path ∧ _ = missing := by simpa using h
    rfl
  · cases h

/-- Bindings with a name that is near to `titel`. -/
def titles : Record := [("a", .record [("title", .number (.int 1))]), ("title", .string "x")]

theorem nearest_titles (hfar : Suggestion.limit missing < distance missing.toList "a".toList)
    (hnear : distance missing.toList "title".toList ≤ Suggestion.limit missing) :
    nearest missing titles.keys = ["title"] := by
  have hkeys : titles.keys = ["a", "title"] := rfl
  have hswap : ¬ distance missing.toList "a".toList ≤ distance missing.toList "title".toList := by omega
  rw [nearest, hkeys]
  simp only [List.map_cons, List.map_nil]
  generalize distance missing.toList "a".toList = far at *
  generalize distance missing.toList "title".toList = near at *
  simp [List.mergeSort, hswap, hnear, hfar, Suggestion.most]

/-- A name without backquotes gets its suggestion. One with backquotes gets none, though a binding is as near
to it. -/
theorem suggestions_are_best_quoted :
    render "entry" "\x7b\x7b a[titel] \x7d\x7d" titles = .error (.render "entry"
      ((Error.indexFailed "a[titel]" (.variableMissing "titel")).line ++ mention ["title"])) ∧
    nearest "\x60title\x60" titles.keys = ["title"] ∧
    render "entry" "\x7b\x7b a[\x60title\x60] \x7d\x7d" titles = .error (.render "entry"
      (Error.indexFailed "a[\x60title\x60]" (.variableMissing "\x60title\x60")).line) := by
  have hrender : ∀ {text e}, Gate.check text = none → evaluate text titles = .error e →
      ∃ shown, render "entry" text titles = .error (.render "entry" shown) := fun hgate he =>
    ⟨_, render_eq_render_iff.2 ⟨rfl, hgate, rfl, _, he, rfl⟩⟩
  refine ⟨?_, nearest_titles (by decide) (by decide), ?_⟩
  · have he : evaluate "\x7b\x7b a[titel] \x7d\x7d" titles =
        .error (.indexFailed "a[titel]" (.variableMissing "titel")) :=
      eq_of_failsAtIndex (by decide +kernel)
    obtain ⟨shown, hshown⟩ := hrender (by decide +kernel) he
    obtain ⟨e, he', hsuggests, -, hfirst⟩ := (suggestions_are_best "titel" titles).2 _ _ _ _ hshown
    obtain rfl := Except.error.inj (he.symm.trans he')
    have htold := hfirst _ (.lookup (.index _ .path)) (by decide) (by decide) (by decide)
      (by decide +kernel)
    have hnearest : nearest "titel" titles.keys = ["title"] := nearest_titles (by decide) (by decide)
    rw [hshown, (hsuggests htold).1, hnearest]
  · have he : evaluate "\x7b\x7b a[\x60title\x60] \x7d\x7d" titles =
        .error (.indexFailed "a[\x60title\x60]" (.variableMissing "\x60title\x60")) :=
      eq_of_failsAtIndex (by decide +kernel)
    obtain ⟨shown, hshown⟩ := hrender (by decide +kernel) he
    obtain ⟨e, he', -, hnone, -⟩ := (suggestions_are_best "\x60title\x60" titles).2 _ _ _ _ hshown
    obtain rfl := Except.error.inj (he.symm.trans he')
    have htold := Suggestion.missing?_eq_none_iff.1 (by decide +kernel : Suggestion.missing?
      (Error.indexFailed "a[\x60title\x60]" (.variableMissing "\x60title\x60")).line.toList = none)
    rw [hshown, hnone htold]

end Template

end Galley
