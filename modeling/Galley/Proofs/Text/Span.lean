import Galley.Text.Blank
import Galley.Text.Search

/-! # Runs of characters

The longest run of a class in front of a text is known from where the class ends. -/

namespace Galley.Text

/-- The text does not go on with a character of a class. -/
def Stops (p : Char → Bool) (text : List Char) : Prop := ∀ c ∈ text.head?, p c = false

theorem Stops.nil (p : Char → Bool) : Stops p [] := by simp [Stops]

theorem stops_cons {p : Char → Bool} {c : Char} {text : List Char} :
    Stops p (c :: text) ↔ p c = false := by simp [Stops]

theorem Stops.append_cons {p : Char → Bool} {text : List Char} (h : Stops p text) {c : Char}
    (hc : p c = false) (more : List Char) : Stops p (text ++ c :: more) := by
  cases text with
  | nil => exact stops_cons.2 hc
  | cons d text => exact stops_cons.2 (stops_cons.1 h)

theorem Stops.of_append {p : Char → Bool} {text more : List Char} (h : Stops p (text ++ more)) :
    Stops p text := by
  cases text with
  | nil => exact .nil p
  | cons d text => exact stops_cons.2 (stops_cons.1 h)

theorem takeWhile_append_of_stops {p : Char → Bool} {run rest : List Char}
    (h : ∀ c ∈ run, p c = true) (hr : Stops p rest) : (run ++ rest).takeWhile p = run := by
  rw [List.takeWhile_append_of_pos h]
  cases rest with
  | nil => simp
  | cons c rest => rw [List.takeWhile_cons_of_neg (by simp [stops_cons.1 hr]), List.append_nil]

theorem dropWhile_append_of_stops {p : Char → Bool} {run rest : List Char}
    (h : ∀ c ∈ run, p c = true) (hr : Stops p rest) : (run ++ rest).dropWhile p = rest := by
  rw [List.dropWhile_append_of_pos h]
  cases rest with
  | nil => simp
  | cons c rest => rw [List.dropWhile_cons_of_neg (by simp [stops_cons.1 hr])]

theorem stops_dropWhile (p : Char → Bool) (text : List Char) : Stops p (text.dropWhile p) := by
  intro c hc
  have := List.head?_dropWhile_not p text
  rw [Option.mem_def.1 hc] at this
  simpa using this

theorem of_mem_takeWhile {p : Char → Bool} {text : List Char} {c : Char}
    (h : c ∈ text.takeWhile p) : p c = true :=
  List.all_eq_true.1 List.all_takeWhile c h

/-- A front without some character ends before it. -/
theorem exists_append_of_not_mem {x : Char} {front rest text more : List Char} (hx : x ∉ front)
    (h : front ++ rest = text ++ x :: more) :
    ∃ text', text = front ++ text' ∧ rest = text' ++ x :: more := by
  rcases List.append_eq_append_iff.1 h with ⟨mid, ht, hr⟩ | ⟨mid, hf, hm⟩
  · exact ⟨mid, ht, hr⟩
  · cases mid with
    | nil => exact ⟨[], by simpa using hf.symm, by simpa using hm.symm⟩
    | cons c mid =>
      have hc : x = c := (List.cons.inj hm).1
      exact absurd (by simp [hf, hc]) hx

/-- Where a front ends at the first place of a character, the other side ends there or later. -/
theorem append_cons_cases {x : Char} {front rest text more : List Char} (hx : x ∉ front)
    (h : front ++ x :: rest = text ++ x :: more) :
    text = front ∧ rest = more ∨
      ∃ text', text = front ++ x :: text' ∧ rest = text' ++ x :: more := by
  obtain ⟨mid, rfl, hr⟩ := exists_append_of_not_mem hx h
  cases mid with
  | nil => exact .inl ⟨by simp, (List.cons.inj hr).2⟩
  | cons c mid =>
    rw [List.cons_append, List.cons.injEq] at hr
    obtain ⟨rfl, hr⟩ := hr
    exact .inr ⟨mid, rfl, hr⟩

/-- A text is cut in one way at the first place of a character. -/
theorem append_cons_inj {x : Char} {front front' rest rest' : List Char} (hx : x ∉ front)
    (hx' : x ∉ front') (h : front ++ x :: rest = front' ++ x :: rest') :
    front' = front ∧ rest = rest' := by
  rcases append_cons_cases hx h with h | ⟨mid, rfl, -⟩
  · exact h
  · exact absurd (by simp) hx'

end Galley.Text
