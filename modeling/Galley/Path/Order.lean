import Galley.Path.Basic

/-!
The order of paths is total, and it holds two paths equal exactly when they are the same.
-/

namespace Galley.Path

instance : Std.TransCmp Component.compare :=
  inferInstanceAs (Std.TransCmp (compareLex (compareOn Component.rank) (compareOn Component.name)))

theorem Component.compare_eq_iff {a b : Component} : Component.compare a b = .eq ↔ a = b := by
  constructor
  · intro h
    simp only [Component.compare, compareLex_eq_eq, compareOn, Std.LawfulEqOrd.compare_eq_iff_eq] at h
    obtain ⟨hr, hn⟩ := h
    cases a <;> cases b <;> simp_all [Component.rank, Component.name]
  · rintro rfl
    exact Std.ReflCmp.compare_self

instance : Std.LawfulEqCmp Component.compare where
  eq_of_compare := Component.compare_eq_iff.1

instance : Std.TransCmp Path.compare where
  eq_swap {p q} := by
    have h : List.compareLex Component.compare p.components q.components =
        (List.compareLex Component.compare q.components p.components).swap :=
      Std.OrientedCmp.eq_swap
    exact h
  isLE_trans {p q r} hpq hqr := by
    have h : (List.compareLex Component.compare p.components r.components).isLE = true :=
      Std.TransCmp.isLE_trans (b := q.components) hpq hqr
    exact h

theorem compare_eq_iff {p q : Path} : p.compare q = .eq ↔ p.components = q.components := by
  have h : List.compareLex Component.compare p.components q.components = .eq ↔
      p.components = q.components := Std.LawfulEqCmp.compare_eq_iff_eq
  exact h

theorem same_iff {p q : Path} : p.same q = true ↔ p.components = q.components := by
  simp [same]

end Galley.Path
