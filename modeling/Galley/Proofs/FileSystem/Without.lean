import Galley.Proofs.FileSystem.Child

/-! # File systems without some entries

Of a directory some entries are gone, each with all that lay below it. What did not lie there is what it was. -/

namespace Galley.FileSystem

variable {fs fs' : FileSystem} {place : Location} {name : String} {gone : List String}

/-- A file system without some of what stood in a directory, and all that lay below. -/
structure Without (fs : FileSystem) (place : Location) (gone : List String) (fs' : FileSystem) : Prop where
  current : fs'.current = fs.current
  node : ∀ other, fs'.node? other =
    if ∃ name ∈ gone, place ++ [name] <+: other then none else fs.node? other

theorem Without.refl (fs : FileSystem) (place : Location) : fs.Without place [] fs :=
  ⟨rfl, fun other => by simp⟩

theorem Without.remove (h : fs.Without place gone fs') (name : String) :
    fs.Without place (gone ++ [name]) (fs'.remove (place ++ [name])) := by
  refine ⟨h.current, fun other => ?_⟩
  rw [node?_remove, h.node]
  by_cases hpre : place ++ [name] <+: other
  · have hne : other ≠ [] := by
      rintro rfl
      simp at hpre
    rw [if_neg (by simp [hne, hpre]), if_pos ⟨name, by simp, hpre⟩]
  · rw [if_pos (.inr hpre)]
    simp [or_and_right, exists_or, hpre]

theorem Without.kept (h : fs.Without place gone fs') {other : Location}
    (hnot : ∀ name ∈ gone, ¬place ++ [name] <+: other) : fs'.node? other = fs.node? other := by
  rw [h.node, if_neg]
  rintro ⟨name, hm, hpre⟩
  exact hnot name hm hpre

theorem isPrefix_child {other : String} : place ++ [other] <+: place ++ [name] ↔ other = name := by
  rw [List.prefix_append_right_inj]
  simp

theorem Without.child (h : fs.Without place gone fs') (name : String) :
    fs'.node? (place ++ [name]) = if name ∈ gone then none else fs.node? (place ++ [name]) := by
  rw [h.node]
  simp only [isPrefix_child, exists_eq_right]

theorem Without.isDirectoryAt (h : fs.Without place gone fs') (hd : fs.IsDirectoryAt place) :
    fs'.IsDirectoryAt place := by
  have hkept : ∀ front, front <+: place → fs'.node? front = fs.node? front := fun front hf =>
    h.kept fun name _ hpre => by
      have hlength := (hpre.trans hf).length_le
      rw [List.length_append, List.length_singleton] at hlength
      omega
  refine ⟨⟨hd.direct.isName, hd.direct.short, fun front hf hne => ?_⟩, ?_⟩
  · rw [hkept front hf, hd.direct.onTheWay front hf hne]
  · rw [hkept place (List.prefix_refl _), hd.node]

end Galley.FileSystem
