import Galley.Text.EditDistance
import Mathlib.Order.Bounds.Basic

/-! # Edit distance

The rows that are computed hold the least number of edits that lead from one text to another. The number
never changes by more than one when a text is edited once, so no sequence of edits is shorter than it says. -/

namespace Galley.Text.EditDistance

variable {s s' t : List Char} {c d : Char} {n : Nat}

/-- A text and what one insertion, deletion or substitution of a character makes of it. -/
inductive Edit : List Char → List Char → Prop where
  | insert (c : Char) (s : List Char) : Edit s (c :: s)
  | delete (c : Char) (s : List Char) : Edit (c :: s) s
  | substitute (c d : Char) (s : List Char) : Edit (c :: s) (d :: s)
  | further (c : Char) {s s' : List Char} : Edit s s' → Edit (c :: s) (c :: s')

/-- A text and what a number of edits make of it, one after the other. -/
inductive Edits : Nat → List Char → List Char → Prop where
  | none (s : List Char) : Edits 0 s s
  | more {n : Nat} {s s' t : List Char} : Edit s s' → Edits n s' t → Edits (n + 1) s t

theorem Edits.further (c : Char) (h : Edits n s t) : Edits n (c :: s) (c :: t) := by
  induction h with
  | none s => exact .none (c :: s)
  | more edit _ ih => exact .more (.further c edit) ih

/-! ## The rows -/

theorem length_extendRow {row : List Nat} (h : row.length = t.length + 1) :
    (extendRow c t row).length = t.length + 1 := by
  induction t generalizing row with
  | nil =>
    obtain ⟨here, rfl⟩ := List.length_eq_one_iff.1 h
    rfl
  | cons d t ih =>
    obtain ⟨here, row, rfl⟩ := List.exists_cons_of_length_eq_add_one h
    have hrow : row.length = t.length + 1 := by simpa using h
    obtain ⟨diagonal, more, rfl⟩ := List.exists_cons_of_length_eq_add_one hrow
    obtain ⟨right, next, hnext⟩ := List.exists_cons_of_length_eq_add_one (ih hrow)
    have hlength := ih hrow
    rw [hnext] at hlength
    simp [extendRow, hnext, hlength]

theorem length_row (t s : List Char) : (row t s).length = t.length + 1 := by
  induction s with
  | nil =>
    induction t with
    | nil => rfl
    | cons d t ih => simpa [row, baseRow] using ih
  | cons c s ih => exact length_extendRow ih

/-- A row starts with the distance to the whole text. -/
theorem exists_row (t s : List Char) : ∃ more, row t s = distance s t :: more := by
  obtain ⟨here, more, h⟩ := List.exists_cons_of_length_eq_add_one (length_row t s)
  exact ⟨more, by simp [distance, h]⟩

theorem row_cons_cons (c d : Char) (t s : List Char) (h : ∃ here, row (d :: t) s = here :: row t s) :
    row (d :: t) (c :: s) =
      (if c = d then distance s t
        else 1 + min (distance s t) (min (distance s (d :: t)) (distance (c :: s) t))) :: row t (c :: s) := by
  obtain ⟨here, hrow⟩ := h
  obtain ⟨more, hdiagonal⟩ := exists_row t s
  obtain ⟨next, hright⟩ := exists_row t (c :: s)
  have hhere : distance s (d :: t) = here := by simp [distance, hrow]
  have hnext : extendRow c t (distance s t :: more) = distance (c :: s) t :: next := by
    rw [← hdiagonal, ← hright, row]
  simp only [row, hrow, hdiagonal, extendRow, hnext, hhere]

/-- The row of a longer text goes on with the row of the shorter one. -/
theorem row_cons (d : Char) (t s : List Char) : ∃ here, row (d :: t) s = here :: row t s := by
  induction s with
  | nil => exact ⟨_, rfl⟩
  | cons c s ih => exact ⟨_, row_cons_cons c d t s ih⟩

/-! ## The distance -/

@[simp] theorem distance_nil_left (t : List Char) : distance [] t = t.length := by
  cases t <;> rfl

@[simp] theorem distance_nil_right (s : List Char) : distance s [] = s.length := by
  induction s with
  | nil => rfl
  | cons c s ih =>
    obtain ⟨more, hrow⟩ := exists_row [] s
    have hdistance : distance (c :: s) [] = distance s [] + 1 := by
      rw [distance, row, hrow]
      rfl
    rw [hdistance, ih, List.length_cons]

theorem distance_cons_cons (c d : Char) (s t : List Char) : distance (c :: s) (d :: t) =
    if c = d then distance s t
    else 1 + min (distance s t) (min (distance s (d :: t)) (distance (c :: s) t)) := by
  rw [distance, row_cons_cons c d t s (row_cons d t s), List.headD_cons]

theorem distance_cons_self (c : Char) (s t : List Char) : distance (c :: s) (c :: t) = distance s t := by
  rw [distance_cons_cons, if_pos rfl]

theorem distance_cons_cases (h : c ≠ d) (s t : List Char) :
    distance (c :: s) (d :: t) = distance s t + 1 ∨
      distance (c :: s) (d :: t) = distance s (d :: t) + 1 ∨
      distance (c :: s) (d :: t) = distance (c :: s) t + 1 := by
  rw [distance_cons_cons, if_neg h]
  omega

theorem distance_comm (s t : List Char) : distance s t = distance t s := by
  induction s generalizing t with
  | nil => simp
  | cons c s ihs =>
    induction t with
    | nil => simp
    | cons d t iht =>
      rw [distance_cons_cons, distance_cons_cons, ihs t, ihs (d :: t), iht,
        min_comm (distance (d :: t) s)]
      simp only [eq_comm]

@[simp] theorem distance_self (s : List Char) : distance s s = 0 := by
  induction s with
  | nil => rfl
  | cons c s ih => rw [distance_cons_self, ih]

/-! ## As many edits as the distance says -/

theorem edits_insert (t : List Char) : Edits t.length [] t := by
  induction t with
  | nil => exact .none []
  | cons d t ih => exact .more (.insert d []) (ih.further d)

theorem edits_delete (s : List Char) : Edits s.length s [] := by
  induction s with
  | nil => exact .none []
  | cons c s ih => exact .more (.delete c s) ih

theorem edits_distance (s t : List Char) : Edits (distance s t) s t := by
  induction s generalizing t with
  | nil => simpa using edits_insert t
  | cons c s ihs =>
    induction t with
    | nil => simpa using edits_delete (c :: s)
    | cons d t iht =>
      by_cases hcd : c = d
      · subst hcd
        rw [distance_cons_self]
        exact (ihs t).further c
      · have hsubstitute : Edits (distance s t + 1) (c :: s) (d :: t) :=
          .more (.substitute c d s) ((ihs t).further d)
        have hdelete : Edits (distance s (d :: t) + 1) (c :: s) (d :: t) :=
          .more (.delete c s) (ihs (d :: t))
        have hinsert : Edits (distance (c :: s) t + 1) (c :: s) (d :: t) :=
          .more (.insert d (c :: s)) (iht.further d)
        rcases distance_cons_cases hcd s t with h | h | h <;> rw [h]
        · exact hsubstitute
        · exact hdelete
        · exact hinsert

/-! ## No fewer edits -/

theorem distance_cons_cons_le (c d : Char) (s t : List Char) :
    distance (c :: s) (d :: t) ≤ distance s t + 1 := by
  rw [distance_cons_cons]
  split <;> omega

/-- To delete the first character costs one edit, where to insert one does. -/
theorem distance_cons_left_le_of (h : ∀ d t, distance s t ≤ distance s (d :: t) + 1) (c : Char)
    (t : List Char) : distance (c :: s) t ≤ distance s t + 1 := by
  cases t with
  | nil => simp
  | cons d t =>
    have := h d t
    rw [distance_cons_cons]
    split <;> omega

theorem distance_le_cons_right (d : Char) (s t : List Char) :
    distance s t ≤ distance s (d :: t) + 1 := by
  induction s generalizing t d with
  | nil =>
    simp only [distance_nil_left, List.length_cons]
    omega
  | cons c s ih =>
    have hinsert := ih d t
    have hdelete := distance_cons_left_le_of ih c t
    rw [distance_cons_cons]
    split <;> omega

theorem distance_le_cons_left (c : Char) (s t : List Char) : distance s t ≤ distance (c :: s) t + 1 := by
  rw [distance_comm s, distance_comm (c :: s)]
  exact distance_le_cons_right c t s

theorem distance_cons_left_le (c : Char) (s t : List Char) : distance (c :: s) t ≤ distance s t + 1 :=
  distance_cons_left_le_of (distance_le_cons_right · s ·) c t

/-- One edit brings a text nearer to another by one at most. -/
theorem Edit.distance_le (h : Edit s s') (t : List Char) : distance s t ≤ distance s' t + 1 := by
  induction h generalizing t with
  | insert c s => exact distance_le_cons_left c s t
  | delete c s => exact distance_cons_left_le c s t
  | substitute c d s =>
    cases t with
    | nil => simp
    | cons e t =>
      have hsame := distance_cons_cons_le c e s t
      have hdelete := distance_cons_left_le c s (e :: t)
      have hinsert := distance_le_cons_left d s t
      rw [distance_cons_cons d]
      split <;> omega
  | @further c s s' _ ih =>
    induction t with
    | nil => simpa using ih []
    | cons e t iht =>
      have htail := ih t
      have hdelete := ih (e :: t)
      rw [distance_cons_cons, distance_cons_cons]
      split <;> omega

theorem Edits.distance_le (h : Edits n s t) : distance s t ≤ n := by
  induction h with
  | none s => simp
  | @more n s s' t edit _ ih =>
    have := edit.distance_le t
    omega

/-- The distance is the least number of edits. -/
theorem isLeast_distance (s t : List Char) : IsLeast {n | Edits n s t} (distance s t) :=
  ⟨edits_distance s t, fun _ h => h.distance_le⟩

end Galley.Text.EditDistance
