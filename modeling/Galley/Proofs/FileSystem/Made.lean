import Galley.Proofs.FileSystem.Child

/-! # Directories that are made

Making a directory with those it lies in makes nothing but directories, each at a front of its path, and
leaves all that was there. -/

namespace Galley

/-- A path or one it lies in. -/
inductive Path.Front : Path → Path → Prop where
  | refl (p : Path) : Front p p
  | parent {front parent p : Path} : p.parent? = some parent → Front front parent → Front front p

namespace FileSystem

variable {fs fs₁ fs₂ fs' : FileSystem} {p q : Path}

/-- Nothing came but directories, at fronts of a path. -/
structure MakesDirectories (fs : FileSystem) (p : Path) (fs' : FileSystem) : Prop where
  kept : fs.Extends fs'
  isTree : fs.IsTree → fs'.IsTree
  made : ∀ {place node}, fs.node? place = none → fs'.node? place = some node →
    node = .directory ∧ ∃ front, Path.Front front p ∧ fs'.locateName front = .ok (.taken place)

theorem MakesDirectories.refl (fs : FileSystem) (p : Path) : fs.MakesDirectories p fs :=
  ⟨.refl fs, id, fun hn hs => by simp [hn] at hs⟩

theorem MakesDirectories.trans (hq : ∀ front, Path.Front front q → Path.Front front p)
    (h : fs.MakesDirectories q fs₁) (h' : fs₁.MakesDirectories p fs₂) :
    fs.MakesDirectories p fs₂ := by
  refine ⟨h.kept.trans h'.kept, fun ht => h'.isTree (h.isTree ht), fun {place node} hn hs => ?_⟩
  cases hmid : fs₁.node? place with
  | none => exact h'.made hmid hs
  | some found =>
    obtain ⟨rfl, front, hfront, hl⟩ := h.made hn hmid
    have hkept := h'.kept.node hmid
    obtain rfl : .directory = node := by simpa [hkept] using hs
    exact ⟨rfl, front, hq front hfront, locate_of_extends h'.kept hl (.inl ⟨place, rfl⟩)⟩

theorem makesDirectories_of_makeDirectory (h : fs.makeDirectory p = .ok fs') :
    fs.MakesDirectories p fs' := by
  obtain ⟨found, hl, hputs⟩ := puts_of_makeDirectory h
  refine ⟨hputs.kept, hputs.isTree, fun {place node} hn hs => ?_⟩
  rw [hputs.node?] at hs
  split at hs
  · next he =>
    subst he
    refine ⟨(Option.some.inj hs).symm, p, .refl p, ?_⟩
    exact locate_of_extends hputs.kept hl (.inr (by rw [hputs.node?, if_pos rfl]))
  · simp [hn] at hs

theorem makesDirectories_unlessThere (fs : FileSystem) (p : Path) :
    fs.MakesDirectories p (fs.makeDirectoryUnlessThere p).1 := by
  rw [makeDirectoryUnlessThere]
  split
  · next h => exact makesDirectories_of_makeDirectory h
  · exact .refl fs p

theorem makesDirectories_within (fs : FileSystem) (levels : Nat) (p : Path) :
    fs.MakesDirectories p (fs.makeDirectoriesWithin levels p).1 := by
  induction levels generalizing p with
  | zero => exact .refl fs p
  | succ levels ih =>
    rw [makeDirectoriesWithin]
    split
    · exact .refl fs p
    · split
      · next parent _ hparent =>
        have hfront : ∀ front, Path.Front front parent → Path.Front front p :=
          fun front hf => .parent hparent hf
        have hbelow := ih parent
        split
        · next fs₁ h₁ =>
          rw [h₁] at hbelow
          exact hbelow.trans hfront (makesDirectories_unlessThere fs₁ p)
        · next fs₁ e h₁ =>
          rw [h₁] at hbelow
          exact hbelow.trans hfront (.refl fs₁ p)
      · exact makesDirectories_unlessThere fs p

/-- What is done when a directory has to be there. -/
theorem makesDirectories_ensure (fs : FileSystem) (p : Path) :
    fs.MakesDirectories p (fs.ensureDirectory p).1 := by
  rw [ensureDirectory]
  split
  · exact makesDirectories_within fs _ p
  · exact .refl fs p

theorem isDirectory_of_directory {place : Location} (h : fs.IsDirectoryAt place)
    (hp : IsWalkable (.ofLocation place)) : fs.isDirectory (.ofLocation place) = true := by
  rw [isDirectory, status_of_direct h.direct h.node (by simp) hp]

/-- Where a directory is, none is made. -/
theorem ensureDirectory_of_isDirectory {p : Path} (h : fs.isDirectory p = true) :
    fs.ensureDirectory p = (fs, .ok ()) := by
  have hexists : fs.pathExists p = true := by
    rw [isDirectory] at h
    split at h
    · next hstatus =>
      rw [pathExists, hstatus]
      rfl
    · cases h
  rw [ensureDirectory, if_neg (by simp [hexists]), if_pos h]

end FileSystem

end Galley
