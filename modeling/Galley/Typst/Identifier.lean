/-!
Identifiers that Typst source can hold bare: an ASCII letter or underscore, then ASCII letters,
digits and underscores.
-/

namespace Galley.Typst

def isIdentifierStart (c : Char) : Bool := c.isAlpha || c == '_'

def isIdentifierRest (c : Char) : Bool := c.isAlphanum || c == '_'

def isIdentifier (name : String) : Bool :=
  match name.toList with
  | [] => false
  | c :: rest => isIdentifierStart c && rest.all isIdentifierRest

theorem isIdentifierRest_of_start {c : Char} (h : isIdentifierStart c = true) :
    isIdentifierRest c = true := by
  simp only [isIdentifierStart, isIdentifierRest, Char.isAlphanum, Bool.or_eq_true] at h ⊢
  rcases h with h | h
  · exact .inl (.inl h)
  · exact .inr h

theorem isIdentifierStart_of_isDigit {c : Char} (h : c.isDigit = true) :
    isIdentifierStart c = false := by
  have hbound : c.toNat ≤ 57 := (Char.isDigit_iff_toNat.1 h).2
  have hupper : c.isUpper = false := by
    refine decide_eq_false fun hu => ?_
    have : 65 ≤ c.toNat := hu.1
    omega
  have hlower : c.isLower = false := by
    refine Bool.and_eq_false_iff.2 (.inl (decide_eq_false fun hl => ?_))
    have : 97 ≤ c.toNat := hl
    omega
  have halpha : c.isAlpha = false := Bool.or_eq_false_iff.2 ⟨hupper, hlower⟩
  have hunderscore : (c == '_') = false := by
    rw [beq_eq_false_iff_ne]
    rintro rfl
    exact absurd hbound (by decide)
  rw [isIdentifierStart, halpha, hunderscore]
  rfl

theorem isIdentifier_iff {name : String} : isIdentifier name = true ↔
    ∃ c rest, name.toList = c :: rest ∧ isIdentifierStart c = true ∧
      ∀ x ∈ rest, isIdentifierRest x = true := by
  unfold isIdentifier
  cases name.toList with
  | nil => simp
  | cons c rest =>
    simp only [Bool.and_eq_true, List.all_eq_true]
    constructor
    · rintro ⟨h, h'⟩
      exact ⟨c, rest, rfl, h, h'⟩
    · rintro ⟨_, _, he, h, h'⟩
      obtain ⟨rfl, rfl⟩ := List.cons.inj he
      exact ⟨h, h'⟩

theorem isIdentifierRest_of_mem {name : String} (h : isIdentifier name = true) {c : Char}
    (hc : c ∈ name.toList) : isIdentifierRest c = true := by
  obtain ⟨first, rest, hname, hfirst, hrest⟩ := isIdentifier_iff.1 h
  rw [hname] at hc
  rcases List.mem_cons.1 hc with rfl | hc
  · exact isIdentifierRest_of_start hfirst
  · exact hrest c hc

end Galley.Typst
