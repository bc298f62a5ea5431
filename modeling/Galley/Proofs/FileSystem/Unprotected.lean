import Galley.Path.Protected
import Galley.Proofs.FileSystem.Canonical

/-! # Files that differ in protected directories

When file systems differ in nothing but the contents of files in protected directories, every path leads to
the same place in them, and a file at a canonical path outside those directories is read alike. -/

namespace Galley.FileSystem

/-- The same stands everywhere, but for the contents of files in protected directories. -/
structure SameUnprotected (fs fs' : FileSystem) : Prop where
  current : fs'.current = fs.current
  node : ∀ place, fs'.node? place = fs.node? place ∨
    (Path.ofLocation place).isProtected = true ∧
      ∃ old new, fs.node? place = some (.file old) ∧ fs'.node? place = some (.file new)

variable {fs fs' : FileSystem} {place : Location} {p q : Path}

/-- Another content is given to a file in a protected directory. -/
theorem sameUnprotected_set {old new : Text.Bytes} (hp : (Path.ofLocation place).isProtected = true)
    (hold : fs.node? place = some (.file old)) :
    fs.SameUnprotected (fs.set place (.file new)) := by
  have hne : place ≠ [] := fun he => by simp [he, node?_root] at hold
  refine ⟨rfl, fun other => ?_⟩
  rw [node?_set _ _ _ _ hne]
  split
  · next he => exact .inr ⟨he ▸ hp, old, new, he ▸ hold, rfl⟩
  · exact .inl rfl

namespace SameUnprotected

/-- What is no file stands in both. -/
theorem node?_eq {node : Option Node} (h : fs.SameUnprotected fs') (hn : fs.node? place = node)
    (hfile : ∀ content, node ≠ some (.file content)) : fs'.node? place = node := by
  rcases h.node place with he | ⟨-, old, new, hold, -⟩
  · exact he.trans hn
  · exact absurd (hn.symm.trans hold) (hfile old)

theorem exists_file {content : Text.Bytes} (h : fs.SameUnprotected fs')
    (hn : fs.node? place = some (.file content)) : ∃ new, fs'.node? place = some (.file new) := by
  rcases h.node place with he | ⟨-, old, new, -, hnew⟩
  · exact ⟨content, he.trans hn⟩
  · exact ⟨new, hnew⟩

theorem node?_unprotected (h : fs.SameUnprotected fs')
    (hp : (Path.ofLocation place).isProtected = false) : fs'.node? place = fs.node? place := by
  rcases h.node place with he | ⟨hprotected, -⟩
  · exact he
  · rw [hp] at hprotected
    cases hprotected

/-- A walk asks what stands at a location, and never for the content of a file. -/
theorem walk_eq (h : fs.SameUnprotected fs') (follow : Bool) (links : Nat) (directory : Location)
    (names : List (List Char)) :
    fs'.walk follow links directory names = fs.walk follow links directory names := by
  fun_induction walk fs follow links directory names with
  | case1 links directory => rw [walk]
  | case2 links directory segment rest hi ih => rw [walk, if_pos hi, ih]
  | case3 links directory rest hi ih => rw [walk, if_neg hi, if_pos rfl, ih]
  | case4 links directory segment rest hi hp hl => rw [walk, if_neg hi, if_neg hp, if_pos hl]
  | case5 links directory segment rest hi hp hl name step hnode hr
  | case6 links directory segment rest hi hp hl name step hnode hr
  | case10 links directory segment rest hi hp hl name step target hnode hr
  | case11 directory segment rest hi hp hl name step target hnode hr =>
    have hsame := h.node?_eq hnode (by simp)
    simp only [step, name] at hsame
    rw [walk, if_neg hi, if_neg hp, if_neg hl]
    simp [hsame, hr, step, name]
  | case8 links directory segment rest hi hp hl name step content hnode hr
  | case9 links directory segment rest hi hp hl name step content hnode hr =>
    obtain ⟨new, hnew⟩ := h.exists_file hnode
    simp only [step, name] at hnew
    rw [walk, if_neg hi, if_neg hp, if_neg hl]
    simp [hnew, hr, step, name]
  | case7 links directory segment rest hi hp hl name step hnode ih =>
    have hsame := h.node?_eq hnode (by simp)
    simp only [step, name] at hsame
    rw [walk, if_neg hi, if_neg hp, if_neg hl]
    simp only [hsame]
    exact ih
  | case12 directory segment rest hi hp hl name step target hnode hr links ih =>
    have hsame := h.node?_eq hnode (by simp)
    simp only [step, name] at hsame
    rw [walk, if_neg hi, if_neg hp, if_neg hl]
    simp only [hsame, hr]
    exact ih

theorem locate_eq (h : fs.SameUnprotected fs') (p : Path) (follow : Bool) :
    fs'.locate p follow = fs.locate p follow := by
  simp only [locate, namesFromRoot, h.current, h.walk_eq]

theorem find_eq (h : fs.SameUnprotected fs') (p : Path) (follow : Bool) :
    fs'.find p follow = fs.find p follow := by
  simp only [find, h.locate_eq]

theorem canonicalize_eq (h : fs.SameUnprotected fs') (p : Path) :
    fs'.canonicalize p = fs.canonicalize p := by
  rw [canonicalize, h.find_eq, canonicalize]

theorem isFile_eq (h : fs.SameUnprotected fs') (p : Path) : fs'.isFile p = fs.isFile p := by
  simp only [isFile, status, h.find_eq]
  cases fs.find p with
  | error e => rfl
  | ok place =>
    rcases h.node place with he | ⟨-, old, new, hold, hnew⟩
    · simp only [bind, Except.bind, he]
    · simp only [bind, Except.bind, hold, hnew]

/-- At a canonical path that is not protected, the same is read. -/
theorem read_eq (h : fs.SameUnprotected fs') (hc : fs.canonicalize p = .ok q)
    (hq : q.isProtected = false) : fs'.read q = fs.read q := by
  obtain ⟨place, node, rfl, hd, hn, hl⟩ := direct_of_canonicalize hc
  have hstatus : fs'.status (.ofLocation place) = fs.status (.ofLocation place) := by
    simp only [status, h.find_eq]
    cases hf : fs.find (.ofLocation place) with
    | error e => rfl
    | ok other =>
      have hother := locate_ofLocation hd hn hl (find_eq_ok_iff.1 hf)
      obtain rfl : other = place := by simpa using hother
      simp only [bind, Except.bind, h.node?_unprotected hq]
  rw [read, hstatus, read]

theorem isFileAt {content : Text.Bytes} (h : fs.SameUnprotected fs')
    (hq : q.isProtected = false) (hf : fs.IsFileAt q place content) (hc : fs.canonicalize p = .ok q) :
    fs'.IsFileAt q place content := by
  have hpath := hf.path
  refine ⟨hpath, ⟨hf.direct.isName, hf.direct.short, fun front hfront hne => ?_⟩, ?_, ?_⟩
  · exact h.node?_eq (hf.direct.onTheWay front hfront hne) (by simp)
  · rw [h.node?_unprotected (hpath ▸ hq), hf.node]
  · rw [h.read_eq hc hq, hf.read]

end SameUnprotected

end Galley.FileSystem
