import Galley.Proofs.Text.Span
import Galley.Typst.Literal
import Mathlib.Data.List.Chain

/-! # Escaped text

A character stands for itself between the quotes of a literal, or a backslash and a code stand for
it. So a quote there comes after a backslash, lines do not end there, and text without a backslash
is what it was. -/

namespace Galley.Typst.Literal

/-- What stands between the quotes of a literal. -/
def escaped (text : List Char) : List Char := text.flatMap escape

theorem escaped_cons (c : Char) (text : List Char) :
    escaped (c :: text) = escape c ++ escaped text := rfl

theorem escaped_append (a b : List Char) : escaped (a ++ b) = escaped a ++ escaped b :=
  List.flatMap_append

/-- The codes that stand behind a backslash. -/
def codes : List (List Char) :=
  [['\\'], ['"'], ['u', '\x7b', '2', '7', '\x7d'], ['n'], ['t'], ['r'], ['u', '\x7b', 'c', '\x7d'],
    ['u', '\x7b', '8', '\x7d']]

theorem escape_cases (c : Char) :
    (escape c = [c] ∧ c ∉ ['\\', '"', '\n', '\t', '\r']) ∨ ∃ code ∈ codes, escape c = '\\' :: code := by
  unfold escape
  split
  · exact .inr ⟨['\\'], by decide, rfl⟩
  split
  · exact .inr ⟨['"'], by decide, rfl⟩
  split
  · exact .inr ⟨['u', '\x7b', '2', '7', '\x7d'], by decide, rfl⟩
  split
  · exact .inr ⟨['n'], by decide, rfl⟩
  split
  · exact .inr ⟨['t'], by decide, rfl⟩
  split
  · exact .inr ⟨['r'], by decide, rfl⟩
  split
  · exact .inr ⟨['u', '\x7b', 'c', '\x7d'], by decide, rfl⟩
  split
  · exact .inr ⟨['u', '\x7b', '8', '\x7d'], by decide, rfl⟩
  exact .inl ⟨rfl, by simp_all⟩

theorem head?_escaped_ne_quote (text : List Char) : (escaped text).head? ≠ some '"' := by
  cases text with
  | nil => simp [escaped]
  | cons c text =>
    rw [escaped_cons]
    rcases escape_cases c with ⟨he, hc⟩ | ⟨code, -, he⟩
    · rw [he]
      intro h
      obtain rfl : c = '"' := Option.some.inj h
      exact hc (by decide)
    · rw [he]
      exact fun h => absurd (Option.some.inj h) (by decide)

/-- A quote stands behind a backslash only. -/
theorem isChain_escaped (text : List Char) :
    (escaped text).IsChain fun p q => q = '"' → p = '\\' := by
  induction text with
  | nil => exact .nil
  | cons c text ih =>
    have hescape : (escape c).IsChain fun p q => q = '"' → p = '\\' := by
      rcases escape_cases c with ⟨he, -⟩ | ⟨code, hcode, he⟩
      · rw [he]
        exact .singleton c
      · have hall : ∀ code ∈ codes, ('\\' :: code).IsChain fun p q => q = '"' → p = '\\' := by
          decide
        rw [he]
        exact hall code hcode
    rw [escaped_cons]
    refine hescape.append ih fun p _ q hq hquote => ?_
    subst hquote
    exact absurd (Option.mem_def.1 hq) (head?_escaped_ne_quote text)

theorem eq_backslash_of_escaped {text front rest : List Char} {c : Char}
    (h : escaped text = front ++ c :: '"' :: rest) : c = '\\' := by
  have hchain := isChain_escaped text
  rw [h] at hchain
  have := hchain.right_of_append
  rw [List.isChain_cons_cons] at this
  exact this.1 rfl

theorem not_blank_of_mem_escaped {text : List Char} {c : Char} (h : c ∈ escaped text) :
    c ≠ '\n' ∧ c ≠ '\r' ∧ c ≠ '\t' := by
  obtain ⟨x, -, hc⟩ := List.mem_flatMap.1 h
  rcases escape_cases x with ⟨he, hx⟩ | ⟨code, hcode, he⟩
  · rw [he, List.mem_singleton] at hc
    subst hc
    simp_all
  · have hall : ∀ code ∈ codes, ∀ c ∈ '\\' :: code, c ≠ '\n' ∧ c ≠ '\r' ∧ c ≠ '\t' := by
      simp [codes]
    rw [he] at hc
    exact hall code hcode c hc

theorem eq_space_of_mem_escaped {text : List Char} {c : Char} (h : c ∈ escaped text)
    (hb : Text.isSpaceOrTab c = true) : c = ' ' := by
  simp only [Text.isSpaceOrTab, Bool.or_eq_true, beq_iff_eq] at hb
  exact hb.resolve_right (not_blank_of_mem_escaped h).2.2

/-- Where no backslash stands, escaped text is the text itself. -/
theorem exists_append_of_escaped {text plain rest : List Char} (hp : '\\' ∉ plain)
    (h : escaped text = plain ++ rest) :
    ∃ text', text = plain ++ text' ∧ escaped text' = rest := by
  induction plain generalizing text with
  | nil => exact ⟨text, rfl, h⟩
  | cons c plain ih =>
    obtain ⟨hc, hplain⟩ : '\\' ≠ c ∧ '\\' ∉ plain := by simpa using hp
    cases text with
    | nil => cases h
    | cons x text =>
      rw [escaped_cons] at h
      rcases escape_cases x with ⟨he, -⟩ | ⟨code, -, he⟩
      · rw [he, List.singleton_append, List.cons_append, List.cons.injEq] at h
        obtain ⟨rfl, h⟩ := h
        obtain ⟨text', rfl, hrest⟩ := ih hplain h
        exact ⟨text', rfl, hrest⟩
      · rw [he] at h
        exact absurd (List.cons.inj h).1 hc

/-- Text that can only be read from a string that has it. -/
structure Raw (text : List Char) : Prop where
  noQuote : '"' ∉ text
  noBackslash : '\\' ∉ text

theorem raw_of_blank {text : List Char} (h : ∀ c ∈ text, Text.isSpaceOrTab c = true) : Raw text :=
  ⟨fun hm => absurd (h _ hm) (by decide), fun hm => absurd (h _ hm) (by decide)⟩

theorem Raw.append {a b : List Char} (ha : Raw a) (hb : Raw b) : Raw (a ++ b) :=
  ⟨by simp [ha.noQuote, hb.noQuote], by simp [ha.noBackslash, hb.noBackslash]⟩

theorem Raw.exists_append {text after plain rest : List Char} (hp : Raw plain)
    (h : escaped text ++ '"' :: after = plain ++ rest) :
    ∃ text', text = plain ++ text' ∧ escaped text = plain ++ escaped text' ∧
      rest = escaped text' ++ '"' :: after := by
  obtain ⟨mid, he, hrest⟩ := Text.exists_append_of_not_mem hp.noQuote h.symm
  obtain ⟨text', ht, hmid⟩ := exists_append_of_escaped hp.noBackslash he
  exact ⟨text', ht, by rw [he, hmid], by rw [hrest, hmid]⟩

theorem eq_of_escaped {text plain : List Char} (hp : '\\' ∉ plain) (h : escaped text = plain) :
    text = plain := by
  rw [← List.append_nil plain] at h
  obtain ⟨text', rfl, he⟩ := exists_append_of_escaped hp h
  cases text' with
  | nil => rw [List.append_nil]
  | cons c text' =>
    rw [escaped_cons] at he
    rcases escape_cases c with ⟨hc, -⟩ | ⟨code, -, hc⟩ <;>
      · rw [hc] at he
        cases he

theorem escaped_of_plain {plain : List Char}
    (hp : ∀ c ∈ plain, escape c = [c]) : escaped plain = plain := by
  induction plain with
  | nil => rfl
  | cons c plain ih =>
    rw [escaped_cons, hp c (by simp), ih fun x hx => hp x (List.mem_cons_of_mem _ hx)]
    rfl

theorem escaped_spaces {text : List Char} (h : ∀ c ∈ text, c = ' ') : escaped text = text :=
  escaped_of_plain fun c hc => by rw [h c hc]; decide

/-- A number sign in escaped text is one of the text. -/
theorem exists_sign_of_escaped {text front rest : List Char}
    (h : escaped text = front ++ '#' :: rest) :
    ∃ front' rest', text = front' ++ '#' :: rest' ∧ escaped front' = front ∧
      escaped rest' = rest := by
  induction text generalizing front with
  | nil => simp [escaped] at h
  | cons c text ih =>
    rw [escaped_cons] at h
    have hskip : ∀ front₁, front = escape c ++ front₁ → escaped text = front₁ ++ '#' :: rest →
        ∃ front' rest', c :: text = front' ++ '#' :: rest' ∧ escaped front' = front ∧
          escaped rest' = rest := by
      rintro front₁ rfl h₁
      obtain ⟨front', rest', rfl, hf, hr⟩ := ih h₁
      exact ⟨c :: front', rest', rfl, by rw [escaped_cons, hf], hr⟩
    by_cases hc : '#' ∈ escape c
    · obtain rfl : c = '#' := by
        rcases escape_cases c with ⟨he, -⟩ | ⟨code, hcode, he⟩
        · rw [he, List.mem_singleton] at hc
          exact hc.symm
        · have hall : ∀ code ∈ codes, '#' ∉ '\\' :: code := by decide
          rw [he] at hc
          exact absurd hc (hall code hcode)
      cases front with
      | nil => exact ⟨[], text, rfl, rfl, (List.cons.inj h).2⟩
      | cons x front =>
        obtain ⟨rfl, h₁⟩ := List.cons.inj h
        exact hskip front rfl h₁
    · obtain ⟨front₁, hf, h₁⟩ := Text.exists_append_of_not_mem hc h
      exact hskip front₁ hf h₁

end Galley.Typst.Literal
