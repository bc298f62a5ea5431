import Galley.Proofs.FileSystem.Made
import Galley.Proofs.FileSystem.Parent

/-! # Directories that were asked for once

A directory that could not be made cannot be made from what is left then either, and nothing more is made by
asking for it again: the first of the directories on the way that cannot be made keeps all below it from being
there. -/

namespace Galley.FileSystem

variable {fs fs' : FileSystem} {p parent : Path}

/-- A directory is not there and is not made, nor is anything else by trying. -/
structure Blocked (fs : FileSystem) (p : Path) : Prop where
  isEmpty : p.isEmpty = false
  missing : fs.isDirectory p = false
  refused : ∀ levels, ∃ e, fs.makeDirectoriesWithin levels p = (fs, .error e)

theorem makeDirectoryUnlessThere_error {e : OsError} (h : fs.makeDirectoryUnlessThere p = (fs', .error e)) :
    fs' = fs ∧ fs.makeDirectory p = .error e ∧ fs.isDirectory p = false := by
  rw [makeDirectoryUnlessThere] at h
  split at h
  · cases h
  · next e' hm =>
    obtain ⟨rfl, he⟩ := Prod.mk.inj h
    split at he
    · cases he
    · next hd =>
      obtain rfl := Except.error.inj he
      exact ⟨rfl, hm, by simpa using hd⟩

theorem makeDirectoryUnlessThere_of_error {e : OsError} (hm : fs.makeDirectory p = .error e)
    (hd : fs.isDirectory p = false) : fs.makeDirectoryUnlessThere p = (fs, .error e) := by
  rw [makeDirectoryUnlessThere, hm]
  simp [hd]

/-- What lies in a directory that cannot be made cannot be made. -/
theorem Blocked.below (h : fs.Blocked parent) (hp : p.parent? = some parent) : fs.Blocked p := by
  rcases Path.exists_below hp with rfl | ⟨front, more, hb⟩
  · exact absurd h.isEmpty (by decide)
  have hempty : p.isEmpty = false := by
    rw [Path.isEmpty, Bool.eq_false_iff, Ne, String.isEmpty_iff, ← String.toList_eq_nil_iff, hb.text]
    simp
  have hmissing : fs.isDirectory p = false := by
    rw [Bool.eq_false_iff]
    intro hd
    exact absurd (isDirectory_parent hb hd) (by simp [h.missing])
  refine ⟨hempty, hmissing, fun levels => ?_⟩
  cases levels with
  | zero => exact ⟨_, rfl⟩
  | succ levels =>
    rw [makeDirectoriesWithin, if_neg (by simp [hempty])]
    cases hm : fs.makeDirectory p with
    | ok fs' => exact absurd (isDirectory_parent_of_makeDirectory hb hm) (by simp [h.missing])
    | error e =>
      split
      · next parent' _ hp' =>
        obtain rfl := Option.some.inj (hp.symm.trans hp')
        obtain ⟨e', he⟩ := h.refused levels
        rw [he]
        exact ⟨e', rfl⟩
      · exact ⟨e, makeDirectoryUnlessThere_of_error hm hmissing⟩

theorem makeDirectoryUnlessThere_again (h : fs.makeDirectoryUnlessThere p = (fs', .ok ())) :
    fs'.makeDirectory p = .error .alreadyExists := by
  rw [makeDirectoryUnlessThere] at h
  split at h
  · next hm =>
    obtain ⟨rfl, -⟩ := Prod.mk.inj h
    exact makeDirectory_again hm
  · obtain ⟨rfl, he⟩ := Prod.mk.inj h
    split at he
    · next hd => exact makeDirectory_of_isDirectory hd
    · cases he

/-- Where directories were made, asking for them makes nothing. -/
theorem makeDirectoriesWithin_again {levels : Nat} (h : fs.makeDirectoriesWithin levels p = (fs', .ok ())) :
    p.isEmpty = true ∨ fs'.makeDirectory p = .error .alreadyExists := by
  cases levels with
  | zero => cases h
  | succ levels =>
    rw [makeDirectoriesWithin] at h
    split at h
    · next he => exact .inl he
    · split at h
      · split at h
        · exact .inr (makeDirectoryUnlessThere_again h)
        · cases h
      · exact .inr (makeDirectoryUnlessThere_again h)

/-- Nothing is made by asking for what is there. -/
theorem makeDirectoriesWithin_of_there (h : p.isEmpty = true ∨ fs.makeDirectory p = .error .alreadyExists)
    (levels : Nat) : (fs.makeDirectoriesWithin levels p).1 = fs := by
  cases levels with
  | zero => rfl
  | succ levels =>
    rw [makeDirectoriesWithin]
    split
    · rfl
    · next hempty =>
      rw [h.resolve_left hempty, makeDirectoryUnlessThere, h.resolve_left hempty]

/-- A directory that is not there and that is refused, though nothing is missing where it lies, is refused
again. -/
theorem blocked_of_refused {e : OsError} (hempty : p.isEmpty = false) (hm : fs.makeDirectory p = .error e)
    (hmissing : fs.isDirectory p = false)
    (hparent : ∀ parent, fs.makeDirectory p = .error .notFound → p.parent? = some parent →
      ∀ levels, (fs.makeDirectoriesWithin levels parent).1 = fs) : fs.Blocked p := by
  refine ⟨hempty, hmissing, fun levels => ?_⟩
  cases levels with
  | zero => exact ⟨_, rfl⟩
  | succ levels =>
    rw [makeDirectoriesWithin, if_neg (by simp [hempty])]
    split
    · next parent hm' hp =>
      have hkept := hparent parent hm' hp levels
      split
      · next fs₁ hmade =>
        rw [hmade] at hkept
        obtain rfl : fs₁ = fs := hkept
        exact ⟨e, makeDirectoryUnlessThere_of_error hm hmissing⟩
      · next fs₁ e' hmade =>
        rw [hmade] at hkept
        obtain rfl : fs₁ = fs := hkept
        exact ⟨e', rfl⟩
    · exact ⟨e, makeDirectoryUnlessThere_of_error hm hmissing⟩

/-- Levels enough for a path and all that it lies in. -/
def Reaches (levels : Nat) (p : Path) : Prop := 0 < levels ∧ (p.parent? = none ∨ p.segments.length < levels)

theorem Reaches.above {levels : Nat} (h : Reaches (levels + 1) p) (hp : p.parent? = some parent) :
    Reaches levels parent := by
  have hlength : p.segments.length < levels + 1 := h.2.resolve_left (by simp [hp])
  have hpositive : 0 < p.segments.length := List.length_pos_iff.2 (Text.splitOnChar_ne_nil _ _)
  refine ⟨by omega, ?_⟩
  rcases Path.exists_below hp with rfl | ⟨front, more, hb⟩
  · exact .inl (by decide)
  by_cases hf : front = []
  · have hroot : parent = ⟨"/"⟩ := by
      have htext := hb.parent
      rw [if_pos hf] at htext
      cases parent
      congr 1
      rw [← String.toList_inj, htext]
      rfl
    exact .inl (by rw [hroot]; decide)
  · have hparent : parent.segments = Text.splitOnChar (· == '/') front := by
      rw [Path.segments, hb.parent, if_neg hf]
    have hmore := List.length_pos_iff.2 (Text.splitOnChar_ne_nil (· == '/') more)
    rw [hb.segments, List.length_append, ← hparent] at hlength
    exact .inr (by omega)

/-- Where directories could not be made, none can be made. -/
theorem blocked_of_makeDirectoriesWithin {levels : Nat} {e : OsError} (hl : Reaches levels p)
    (h : fs.makeDirectoriesWithin levels p = (fs', .error e)) : fs'.Blocked p := by
  induction levels generalizing fs' p e with
  | zero => exact absurd hl.1 (by simp)
  | succ levels ih =>
    rw [makeDirectoriesWithin] at h
    split at h
    · cases h
    next hempty =>
    split at h
    · next parent hm hp =>
      split at h
      · next fs₁ hmade =>
        obtain ⟨rfl, hm', hmissing⟩ := makeDirectoryUnlessThere_error h
        refine blocked_of_refused (by simpa using hempty) hm' hmissing fun parent' _ hp' => ?_
        obtain rfl := Option.some.inj (hp.symm.trans hp')
        exact makeDirectoriesWithin_of_there (makeDirectoriesWithin_again hmade)
      · next fs₁ e' hmade =>
        obtain ⟨rfl, -⟩ := Prod.mk.inj h
        exact (ih (hl.above hp) hmade).below hp
    · next hother =>
      obtain ⟨rfl, hm', hmissing⟩ := makeDirectoryUnlessThere_error h
      exact blocked_of_refused (by simpa using hempty) hm' hmissing fun parent' hm hp =>
        (hother parent' hm hp).elim

theorem reaches_segments (p : Path) : Reaches (p.segments.length + 1) p := ⟨by omega, .inr (by omega)⟩

/-- What asking for a directory comes to. -/
theorem ensureDirectory_cases (fs : FileSystem) (p : Path) :
    (fs.pathExists p = true ∧
      fs.ensureDirectory p = (fs, if fs.isDirectory p then .ok () else .error (.blocked p))) ∨
    ∃ fs' made, fs.makeDirectories p = (fs', made) ∧
      fs.ensureDirectory p = (fs', made.mapError (.notMade p)) := by
  by_cases hexists : fs.pathExists p = true
  · exact .inl ⟨hexists, by rw [ensureDirectory, if_neg (by simp [hexists])]⟩
  · obtain ⟨fs', made, hmade⟩ : ∃ fs' made, fs.makeDirectories p = (fs', made) := ⟨_, _, rfl⟩
    exact .inr ⟨fs', made, hmade, by rw [ensureDirectory, if_pos (by simp [hexists]), hmade]⟩

/-- A directory that cannot be made cannot be had. -/
theorem Blocked.ensureDirectory (h : fs.Blocked p) :
    ∃ fault, fs.ensureDirectory p = (fs, .error fault) := by
  rcases ensureDirectory_cases fs p with ⟨-, he⟩ | ⟨fs', made, hmade, he⟩
  · exact ⟨_, by rw [he, h.missing]; rfl⟩
  · obtain ⟨e, hrefused⟩ := h.refused (p.segments.length + 1)
    obtain ⟨rfl, rfl⟩ := Prod.mk.inj (hmade.symm.trans hrefused)
    exact ⟨_, he⟩

/-- A directory that could not be had cannot be had from what was left, and nothing more is made. -/
theorem ensureDirectory_refused_again {fault : PathFault} (h : fs.ensureDirectory p = (fs', .error fault)) :
    fs'.isDirectory p = false ∧ ∃ fault', fs'.ensureDirectory p = (fs', .error fault') := by
  rcases ensureDirectory_cases fs p with ⟨-, he⟩ | ⟨fs₁, made, hmade, he⟩
  · obtain ⟨rfl, hfault⟩ := Prod.mk.inj (he.symm.trans h)
    split at hfault
    · cases hfault
    · next hd => exact ⟨by simpa using hd, _, h⟩
  · obtain ⟨rfl, hfault⟩ := Prod.mk.inj (he.symm.trans h)
    cases made with
    | ok _ => cases hfault
    | error e =>
      have hblocked := blocked_of_makeDirectoriesWithin (reaches_segments p) hmade
      exact ⟨hblocked.missing, hblocked.ensureDirectory⟩

/-- A directory that could be had is had again with nothing made. -/
theorem ensureDirectory_made_again (h : fs.ensureDirectory p = (fs', .ok ())) :
    (fs'.ensureDirectory p).1 = fs' := by
  rcases ensureDirectory_cases fs p with ⟨-, he⟩ | ⟨fs₁, made, hmade, he⟩
  · obtain ⟨rfl, -⟩ := Prod.mk.inj (he.symm.trans h)
    rw [he]
  · obtain ⟨rfl, hok⟩ := Prod.mk.inj (he.symm.trans h)
    cases made with
    | error e => cases hok
    | ok _ =>
      rcases ensureDirectory_cases fs₁ p with ⟨-, he'⟩ | ⟨fs₂, made, hmade', he'⟩
      · rw [he']
      · have hkept := makeDirectoriesWithin_of_there (makeDirectoriesWithin_again hmade) (p.segments.length + 1)
        rw [he']
        exact (congrArg Prod.fst hmade').symm.trans hkept

end Galley.FileSystem
