import Galley.Proofs.Text.Span
import Galley.Template.Expr.Lexeme
import Galley.Text.Word

/-! # Passages of an expression

What a reader takes off a text is a passage: characters of code and whole strings. The calls in what
was read stand in the passage, each with its name, blanks and a parenthesis, and before a name there
is no word, unless it is the word `in`, after which no blank has to stand. -/

namespace Galley.Template

open Lexeme (isSpace skip)

/-! ## Code -/

def isQuoteMark (c : Char) : Bool := c == '"' || c == '\'' || c == '\x60'

/-- A character of an expression outside of strings. Marks of tags are not made of such. -/
def isCode (c : Char) : Bool := !isQuoteMark c && c != '\x7b' && c != '\x7d'

/-- Code with whole strings in it. -/
inductive Code : List Char → Prop where
  | nil : Code []
  | char {c : Char} {text : List Char} : isCode c = true → Code text → Code (c :: text)
  | string {q : Char} {content text : List Char} : isQuoteMark q = true → q ∉ content →
      Code text → Code (q :: (content ++ q :: text))

theorem Code.append {a b : List Char} (ha : Code a) (hb : Code b) : Code (a ++ b) := by
  induction ha with
  | nil => exact hb
  | char hc _ ih => exact .char hc ih
  | string hq hn _ ih =>
    rw [List.cons_append, List.append_assoc, List.cons_append]
    exact .string hq hn ih

theorem Code.of_all {text : List Char} (h : ∀ c ∈ text, isCode c = true) : Code text := by
  induction text with
  | nil => exact .nil
  | cons c text ih => exact .char (h c (by simp)) (ih fun c hc => h c (List.mem_cons_of_mem _ hc))

theorem isCode_of_isSpace {c : Char} (h : isSpace c = true) : isCode c = true := by
  simp only [isSpace, Bool.or_eq_true, beq_iff_eq] at h
  rcases h with ((rfl | rfl) | rfl) | rfl <;> decide

theorem isCode_of_isNameRest {c : Char} (h : Lexeme.isNameRest c = true) : isCode c = true := by
  have hne : ∀ d, Lexeme.isNameRest d = false → c ≠ d := by
    rintro d hd rfl
    rw [h] at hd
    cases hd
  simp [isCode, isQuoteMark, hne '"' (by decide), hne '\'' (by decide), hne '\x60' (by decide),
    hne '\x7b' (by decide), hne '\x7d' (by decide)]

theorem isCode_of_isDigit {c : Char} (h : c.isDigit = true) : isCode c = true :=
  isCode_of_isNameRest (by simp [Lexeme.isNameRest, Char.isAlphanum, h])

theorem isNameRest_of_start {c : Char} (h : Lexeme.isNameStart c = true) :
    Lexeme.isNameRest c = true := by
  simp only [Lexeme.isNameStart, Bool.or_eq_true] at h
  rcases h with h | h <;> simp [Lexeme.isNameRest, Char.isAlphanum, h]

/-! ## Places of calls -/

/-- What comes before a name: nothing, or something that ends without a word or in `in`. -/
def Joint (before : List Char) : Prop :=
  ∀ c, before.getLast? = some c → Text.isWordChar c = false ∨ ['i', 'n'] <:+ before

theorem Joint.append {a b : List Char} (hb : Joint b) (hne : b ≠ []) : Joint (a ++ b) := by
  intro c hc
  obtain ⟨d, hd⟩ := Option.isSome_iff_exists.1 (List.getLast?_isSome.2 hne)
  obtain rfl : d = c := by simpa [List.getLast?_append, hd] using hc
  exact (hb d hd).imp_right fun h => h.trans (List.suffix_append _ _)

theorem joint_of_last {before : List Char} {c : Char} (h : Text.isWordChar c = false) :
    Joint (before ++ [c]) := by
  intro d hd
  obtain rfl : c = d := by simpa using hd
  exact .inl h

/-- A call of a name stands in a passage, after a stretch of it. -/
structure Site (passage : List Char) (name : String) (before : List Char) : Prop where
  stands : ∃ blanks after, passage = before ++ name.toList ++ blanks ++ '(' :: after ∧
    ∀ c ∈ blanks, isSpace c = true
  code : Code before
  joint : Joint before

theorem Site.append {passage before : List Char} {name : String} (h : Site passage name before)
    (more : List Char) : Site (passage ++ more) name before := by
  obtain ⟨blanks, after, rfl, hb⟩ := h.stands
  exact ⟨⟨blanks, after ++ more, by simp, hb⟩, h.code, h.joint⟩

theorem Site.prepend {front passage before : List Char} {name : String}
    (h : Site passage name before) (hf : Code front) (hj : before = [] → Joint front) :
    Site (front ++ passage) name (front ++ before) := by
  obtain ⟨blanks, after, rfl, hb⟩ := h.stands
  refine ⟨⟨blanks, after, by simp, hb⟩, hf.append h.code, ?_⟩
  by_cases hne : before = []
  · subst hne
    simpa using hj rfl
  · exact h.joint.append hne

/-! ## What readers take -/

/-- A reader took a passage off a text, with calls of these names in it. -/
def Passes (text rest : List Char) (names : List String) : Prop :=
  ∃ passage, text = passage ++ rest ∧ Code passage ∧
    ∀ name ∈ names, ∃ before, Site passage name before

/-- A passage with something in front of every call, so that it may come after anything. -/
def Follows (text rest : List Char) (names : List String) : Prop :=
  ∃ passage, text = passage ++ rest ∧ Code passage ∧
    ∀ name ∈ names, ∃ before, before ≠ [] ∧ Site passage name before

/-- A passage after which a name may come. -/
def Breaks (text rest : List Char) : Prop :=
  ∃ passage, text = passage ++ rest ∧ passage ≠ [] ∧ Code passage ∧ Joint passage

variable {text mid rest : List Char} {names more : List String}

theorem Follows.passes (h : Follows text rest names) : Passes text rest names := by
  obtain ⟨passage, ht, hc, hs⟩ := h
  refine ⟨passage, ht, hc, fun name hn => ?_⟩
  obtain ⟨before, -, hb⟩ := hs name hn
  exact ⟨before, hb⟩

theorem Follows.of_code (passage : List Char) (ht : text = passage ++ rest) (hc : Code passage) :
    Follows text rest [] :=
  ⟨passage, ht, hc, by simp⟩

theorem Passes.suffix (h : Passes text rest names) : rest <:+ text := by
  obtain ⟨passage, rfl, -⟩ := h
  exact List.suffix_append _ _

theorem Follows.refl (text : List Char) : Follows text text [] := .of_code [] rfl .nil

theorem Passes.mono (h : Passes text rest names) (hs : more ⊆ names) : Passes text rest more := by
  obtain ⟨passage, ht, hc, hn⟩ := h
  exact ⟨passage, ht, hc, fun name hm => hn name (hs hm)⟩

theorem Follows.mono (h : Follows text rest names) (hs : more ⊆ names) : Follows text rest more := by
  obtain ⟨passage, ht, hc, hn⟩ := h
  exact ⟨passage, ht, hc, fun name hm => hn name (hs hm)⟩

theorem Passes.follow (h : Passes text mid names) (h' : Follows mid rest more) :
    Passes text rest (names ++ more) := by
  obtain ⟨front, rfl, hf, hn⟩ := h
  obtain ⟨back, rfl, hb, hm⟩ := h'
  refine ⟨front ++ back, by simp, hf.append hb, fun name hname => ?_⟩
  rcases List.mem_append.1 hname with hname | hname
  · obtain ⟨before, hs⟩ := hn name hname
    exact ⟨before, hs.append back⟩
  · obtain ⟨before, hne, hs⟩ := hm name hname
    exact ⟨front ++ before, hs.prepend hf fun he => absurd he hne⟩

theorem Follows.follow (h : Follows text mid names) (h' : Follows mid rest more) :
    Follows text rest (names ++ more) := by
  obtain ⟨front, rfl, hf, hn⟩ := h
  obtain ⟨back, rfl, hb, hm⟩ := h'
  refine ⟨front ++ back, by simp, hf.append hb, fun name hname => ?_⟩
  rcases List.mem_append.1 hname with hname | hname
  · obtain ⟨before, hne, hs⟩ := hn name hname
    exact ⟨before, hne, hs.append back⟩
  · obtain ⟨before, hne, hs⟩ := hm name hname
    exact ⟨front ++ before, by simp [hne], hs.prepend hf fun he => absurd he hne⟩

theorem Breaks.follows (h : Breaks text rest) : Follows text rest [] := by
  obtain ⟨passage, ht, -, hc, -⟩ := h
  exact .of_code passage ht hc

theorem Breaks.passes (h : Breaks text mid) (h' : Passes mid rest names) :
    Follows text rest names := by
  obtain ⟨front, rfl, hne, hf, hj⟩ := h
  obtain ⟨back, rfl, hb, hn⟩ := h'
  refine ⟨front ++ back, by simp, hf.append hb, fun name hname => ?_⟩
  obtain ⟨before, hs⟩ := hn name hname
  exact ⟨front ++ before, by simp [hne], hs.prepend hf fun _ => hj⟩

theorem Follows.breaks (h : Follows text mid names) (h' : Breaks mid rest) : Breaks text rest := by
  obtain ⟨front, rfl, hf, -⟩ := h
  obtain ⟨passage, rfl, hne, hc, hj⟩ := h'
  exact ⟨front ++ passage, by simp, by simp [hne], hf.append hc, hj.append hne⟩

/-- A character of code that is in no word. -/
def isSign (c : Char) : Bool := isCode c && !Text.isWordChar c

theorem Breaks.of_signs (signs : List Char) (hne : signs ≠ []) (h : signs.all isSign = true) :
    Breaks (signs ++ rest) rest := by
  have hsign : ∀ c ∈ signs, isCode c = true ∧ Text.isWordChar c = false := by
    simpa [isSign] using h
  exact ⟨signs, rfl, hne, .of_all fun c hc => (hsign c hc).1,
    fun c hc => .inl (hsign c (List.mem_of_getLast? hc)).2⟩

/-! ## Blanks -/

theorem isWordChar_of_isSpace {c : Char} (h : isSpace c = true) : Text.isWordChar c = false := by
  simp only [isSpace, Bool.or_eq_true, beq_iff_eq] at h
  rcases h with ((rfl | rfl) | rfl) | rfl <;> decide

theorem exists_skip (text : List Char) :
    ∃ blanks, text = blanks ++ skip text ∧ ∀ c ∈ blanks, isSpace c = true :=
  ⟨text.takeWhile isSpace, (List.takeWhile_append_dropWhile).symm,
    fun _ hc => Text.of_mem_takeWhile hc⟩

theorem joint_blanks {blanks : List Char} (h : ∀ c ∈ blanks, isSpace c = true) : Joint blanks :=
  fun c hc => .inl (isWordChar_of_isSpace (h c (List.mem_of_getLast? hc)))

theorem follows_skip (text : List Char) : Follows text (skip text) [] := by
  obtain ⟨blanks, ht, hb⟩ := exists_skip text
  exact .of_code blanks ht (.of_all fun c hc => isCode_of_isSpace (hb c hc))

theorem Passes.of_skip (h : Passes (skip text) rest names) : Passes text rest names := by
  obtain ⟨blanks, ht, hb⟩ := exists_skip text
  obtain ⟨passage, hp, hc, hn⟩ := h
  have hcode : Code blanks := .of_all fun c hc => isCode_of_isSpace (hb c hc)
  refine ⟨blanks ++ passage, by rw [List.append_assoc, ← hp, ← ht], hcode.append hc, ?_⟩
  intro name hname
  obtain ⟨before, hs⟩ := hn name hname
  exact ⟨blanks ++ before, hs.prepend hcode fun _ => joint_blanks hb⟩

theorem Follows.of_skip (h : Follows (skip text) rest names) : Follows text rest names :=
  (follows_skip text).follow h

theorem Breaks.of_skip (h : Breaks (skip text) rest) : Breaks text rest := by
  obtain ⟨blanks, ht, hb⟩ := exists_skip text
  obtain ⟨passage, hp, hne, hc, hj⟩ := h
  refine ⟨blanks ++ passage, by rw [List.append_assoc, ← hp, ← ht], by simp [hne], ?_,
    hj.append hne⟩
  exact (Code.of_all fun c hc => isCode_of_isSpace (hb c hc)).append hc

theorem Breaks.skip (h : Breaks text rest) : Breaks text (skip rest) := by
  obtain ⟨passage, rfl, hne, hc, hj⟩ := h
  obtain ⟨blanks, ht, hb⟩ := exists_skip rest
  refine ⟨passage ++ blanks, by rw [List.append_assoc, ← ht], by simp [hne], ?_, ?_⟩
  · exact hc.append (.of_all fun c hc => isCode_of_isSpace (hb c hc))
  · by_cases he : blanks = []
    · simpa [he] using hj
    · exact (joint_blanks hb).append he

/-- After blanks and a sign. -/
theorem breaks_sign {c : Char} (h : skip text = c :: rest)
    (hc : isCode c = true ∧ Text.isWordChar c = false) : Breaks text rest :=
  .of_skip (h ▸ .of_signs [c] (by simp) (by simpa [isSign] using hc))

theorem follows_sign {c : Char} (h : skip text = c :: rest) (hc : isCode c = true) :
    Follows text rest [] :=
  .of_skip (h ▸ .of_code [c] rfl (.char hc .nil))

end Galley.Template
