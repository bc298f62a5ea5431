import Galley.Proofs.FileSystem.Child

/-! # Paths beside other paths

A path with another extension lies where the path lies, under a name that begins with the same stem. What
is seen from an absolute path is absolute. -/

namespace Galley.Path

variable {place : Location} {name stem extension : String}

theorem isAbsolute_join_of_isAbsolute {p : Path} (h : p.isAbsolute = true) (text : String) :
    (p.join text).isAbsolute = true := by
  simp only [isAbsolute, beq_iff_eq] at h ⊢
  rw [join]
  split
  · next ht => exact ht
  · split <;> simp [List.head?_append, h]

/-! ## Another extension -/

theorem segments_ofLocation_append (h : ∀ n ∈ place ++ [name], IsName n) :
    (ofLocation (place ++ [name])).segments = [] :: place.map String.toList ++ [name.toList] := by
  rw [segments_ofLocation h (by simp)]
  simp

/-- The stem of a name, and what goes behind it, when the path of a location gets another extension. -/
theorem exists_withExtension (h : ∀ n ∈ place ++ [name], IsName n) :
    ∃ stem, stem ≠ "" ∧ (name = stem ∨ ∃ back, name = stem ++ "." ++ back) ∧
      ∀ extension, (ofLocation (place ++ [name])).withExtension extension =
        ofLocation (place ++ [if extension.isEmpty then stem else stem ++ "." ++ extension]) := by
  have hname : IsName name := h name (by simp)
  obtain ⟨stem, hstem, hne, hcases⟩ := exists_stem (fileName?_ofLocation h) (by simpa using hname.ne_nil)
  refine ⟨stem, hne, hcases, fun extension => ?_⟩
  rw [withExtension_of_segments hstem (segments_ofLocation_append h) hname.notIdle extension,
    List.cons_append, intercalate_slash, List.nil_append]
  generalize (if extension.isEmpty then stem else stem ++ "." ++ extension) = new
  simp [ofLocation, List.flatMap_map, ← String.toList_inj]

/-- A stem with an extension names something where the stem comes from a name. -/
theorem isName_extended (h : IsName name) (hs : stem ≠ "")
    (hn : name = stem ∨ ∃ back, name = stem ++ "." ++ back) (he : '/' ∉ extension.toList)
    (hne : extension ≠ "") : IsName (stem ++ "." ++ extension) := by
  have hslash : '/' ∉ stem.toList := by
    have hfree := h.noSlash
    rcases hn with rfl | ⟨back, rfl⟩
    · exact hfree
    · simp only [String.toList_append, List.mem_append, not_or] at hfree
      exact hfree.1.1
  have htext : (stem ++ "." ++ extension).toList = stem.toList ++ '.' :: extension.toList := by simp
  obtain ⟨c, front, hfront⟩ := List.exists_cons_of_ne_nil (by simpa using hs : stem.toList ≠ [])
  obtain ⟨d, back, hback⟩ := List.exists_cons_of_ne_nil (by simpa using hne : extension.toList ≠ [])
  refine ⟨by simp [htext, hslash, he], ?_, ?_⟩
  · simp [htext, hfront, hback, isIdle]
  · rw [htext, hfront, hback]
    intro hdots
    have hlength := congrArg List.length hdots
    simp at hlength
    omega

/-- The path of a location stays absolute under every extension. -/
theorem isAbsolute_withExtension_ofLocation (h : ∀ n ∈ place, IsName n) (extension : String) :
    ((ofLocation place).withExtension extension).isAbsolute = true := by
  rcases List.eq_nil_or_concat place with rfl | ⟨front, last, rfl⟩
  · have hstem : (ofLocation []).stem? = none := by decide
    have hsame : (ofLocation []).withExtension extension = ofLocation [] := by
      rw [withExtension, hstem]
    rw [hsame]
    exact isAbsolute_ofLocation []
  · rw [List.concat_eq_append] at h ⊢
    obtain ⟨stem, -, -, hpath⟩ := exists_withExtension h
    rw [hpath]
    exact isAbsolute_ofLocation _

end Galley.Path
