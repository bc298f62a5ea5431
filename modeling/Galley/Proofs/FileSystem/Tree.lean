import Galley.FileSystem.Basic

/-! # Trees

In a file system everything lies in a directory. Where nothing stands, nothing stands below, and this
stays so when files are put into directories, directories are made, and locations are cleared. -/

namespace Galley.FileSystem

/-- What stands somewhere lies in a directory. -/
def IsTree (fs : FileSystem) : Prop :=
  ∀ place name node, fs.node? (place ++ [name]) = some node → fs.node? place = some .directory

variable {fs : FileSystem} {place other : Location}

/-- It is enough to look at the entries. -/
theorem isTree_iff : fs.IsTree ↔
    ∀ e ∈ fs.entries, e.1 = [] ∨ fs.node? e.1.dropLast = some .directory := by
  constructor
  · intro h e he
    rcases List.eq_nil_or_concat e.1 with hroot | ⟨place, name, hplace⟩
    · exact .inl hroot
    · rw [List.concat_eq_append] at hplace
      have hnode : fs.node? (place ++ [name]) ≠ none := by
        rw [node?, if_neg (by simp), ne_eq, List.lookup_eq_none_iff]
        exact fun hall => by simpa [hplace] using hall e he
      obtain ⟨node, hnode⟩ := Option.ne_none_iff_exists'.1 hnode
      exact .inr (by simpa [hplace] using h _ _ _ hnode)
  · intro h place name node hnode
    rw [node?, if_neg (by simp)] at hnode
    obtain ⟨front, back, he, -⟩ := List.lookup_eq_some_iff.1 hnode
    rcases h (place ++ [name], node) (by simp [he]) with hroot | hd
    · simp at hroot
    · simpa using hd

instance (fs : FileSystem) : Decidable fs.IsTree := decidable_of_iff _ isTree_iff.symm

theorem IsTree.directory_of_below (h : fs.IsTree) {rest : Location} (hne : rest ≠ [])
    (hn : fs.node? (place ++ rest) ≠ none) : fs.node? place = some .directory := by
  induction rest generalizing place with
  | nil => exact absurd rfl hne
  | cons name rest ih =>
    rw [← List.singleton_append, ← List.append_assoc] at hn
    have hnext : fs.node? (place ++ [name]) ≠ none := by
      by_cases hr : rest = []
      · simpa [hr] using hn
      · simp [ih hr hn]
    obtain ⟨node, hnode⟩ := Option.ne_none_iff_exists'.1 hnext
    exact h _ _ _ hnode

theorem IsTree.directory_above (h : fs.IsTree) (hd : fs.node? place = some .directory)
    (hpre : other <+: place) : fs.node? other = some .directory := by
  obtain ⟨rest, rfl⟩ := hpre
  by_cases hne : rest = []
  · simpa [hne] using hd
  · exact h.directory_of_below hne (by simp [hd])

/-- Nothing stands below anything but a directory. -/
theorem IsTree.none_below (h : fs.IsTree) (hp : fs.node? place ≠ some .directory) {rest : Location}
    (hne : rest ≠ []) : fs.node? (place ++ rest) = none := by
  refine Decidable.byContradiction fun hn => ?_
  exact hp (h.directory_of_below hne hn)

theorem IsTree.none_beneath (h : fs.IsTree) (hp : fs.node? place = none) (hpre : place <+: other) :
    fs.node? other = none := by
  obtain ⟨rest, rfl⟩ := hpre
  by_cases hne : rest = []
  · simpa [hne] using hp
  · exact h.none_below (by simp [hp]) hne

theorem node?_root_ne_none (fs : FileSystem) : fs.node? [] ≠ none := by simp [node?]

/-- A place in a directory may be given a node, unless things stand below it and the node is no
directory. -/
theorem IsTree.set {directory : Location} {name : String} {node : Node} (h : fs.IsTree)
    (hd : fs.node? directory = some .directory)
    (hn : node = .directory ∨ fs.node? (directory ++ [name]) ≠ some .directory) :
    (fs.set (directory ++ [name]) node).IsTree := by
  intro p n found hfound
  rw [node?_set _ _ _ _ (by simp)] at hfound ⊢
  split at hfound
  · next he =>
    obtain ⟨rfl, -⟩ := List.append_inj' he rfl
    rwa [if_neg (by simp)]
  · have hp := h _ _ _ hfound
    split
    · next he =>
      subst he
      rcases hn with rfl | hn
      · rfl
      · exact absurd hp hn
    · exact hp

theorem IsTree.remove (h : fs.IsTree) : (fs.remove place).IsTree := by
  intro p n found hfound
  rw [node?_remove] at hfound ⊢
  split at hfound
  · next hkept =>
    have hp := h _ _ _ hfound
    rw [if_pos, hp]
    refine .inr fun hpre => ?_
    rcases hkept with hroot | hkept
    · simp at hroot
    · exact hkept (hpre.trans (List.prefix_append _ _))
  · cases hfound

end Galley.FileSystem
