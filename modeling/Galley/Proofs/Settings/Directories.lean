import Galley.Proofs.Settings.Layers

/-! # Directories that follow the base path

Whether a directory was derived from the base path is not kept: it is read off its value. A directory that
no update sets follows the base path. One that is set stays until the base path is changed from one that
derives this very directory, and follows the base path from then on. -/

namespace Galley.Settings

/-- The directories that follow the base path. -/
inductive Directory where
  | working
  | debug
deriving DecidableEq, Repr

namespace Directory

def get : Directory → Settings → Path
  | working, s => s.workingDirectory
  | debug, s => s.debugDirectory

/-- What an update sets a directory to. -/
def set? : Directory → Update → Option String
  | working, u => u.workingDirectory
  | debug, u => u.debugDirectory

def derived : Directory → Path → Path
  | working => derivedWorkingDirectory
  | debug => derivedDebugDirectory

variable {d : Directory} {env : Environment} {s : Settings} {u : Update} {us : List Update}
  {p : Path}

theorem get_apply (d : Directory) (env : Environment) (s : Settings) (u : Update) :
    d.get (s.apply env u) = updatedDirectory env d.derived (d.get s) (d.set? u) s.basePath
      (u.basePath.map (expand env)) := by
  cases d <;> rfl

theorem get_default (d : Directory) (base : Path) : d.get (default base) = d.derived base := by
  cases d <;> rfl

/-- A directory is what the base path derives. -/
def Follows (d : Directory) (s : Settings) : Prop := d.get s = d.derived s.basePath

/-- A directory that the base path derives is derived from the next one, too. -/
theorem follows_of_same (hset : d.set? u = none) (hbase : u.basePath ≠ none)
    (h : (d.get s).same (d.derived s.basePath) = true) : d.Follows (s.apply env u) := by
  obtain ⟨base, hb⟩ := Option.ne_none_iff_exists'.1 hbase
  rw [Follows, get_apply, hset, hb, Option.map_some]
  simp only [updatedDirectory, h, if_true, apply, hb, Option.map_some, Option.getD_some]

theorem Follows.apply (h : d.Follows s) (env : Environment) (hset : d.set? u = none) :
    d.Follows (s.apply env u) := by
  cases hb : u.basePath with
  | some base =>
    refine follows_of_same hset (by simp [hb]) ?_
    rw [h, Path.same, beq_self_eq_true]
  | none =>
    rw [Follows] at h
    rw [Follows, get_apply, hset, hb]
    simpa [Settings.apply, updatedDirectory, hb] using h

theorem Follows.layered (h : d.Follows s) (env : Environment) (hset : ∀ u ∈ us, d.set? u = none) :
    d.Follows (layered env s us) := by
  induction us generalizing s with
  | nil => exact h
  | cons u us ih =>
    exact ih (h.apply env (hset u (by simp))) fun v hv => hset v (List.mem_cons_of_mem _ hv)

/-- Whether the base path is changed, by one of some updates, from one that derives a directory. -/
def leaves (d : Directory) (env : Environment) (p : Path) : Settings → List Update → Bool
  | _, [] => false
  | s, u :: us =>
    (u.basePath.isSome && p.same (d.derived s.basePath)) || d.leaves env p (s.apply env u) us

/-- A directory that no update sets stays, or follows the base path from where that leaves it. -/
theorem get_layered (hset : ∀ u ∈ us, d.set? u = none) (hp : d.get s = p) :
    d.get (layered env s us) =
      if d.leaves env p s us then d.derived (layered env s us).basePath else p := by
  induction us generalizing s with
  | nil => simp [leaves, hp]
  | cons u us ih =>
    have hu := hset u (by simp)
    have hus : ∀ v ∈ us, d.set? v = none := fun v hv => hset v (List.mem_cons_of_mem _ hv)
    rw [layered_cons, leaves]
    by_cases hleaves : (u.basePath.isSome && p.same (d.derived s.basePath)) = true
    · obtain ⟨hb, hs⟩ := Bool.and_eq_true_iff.1 hleaves
      rw [hleaves, Bool.true_or, if_pos rfl]
      exact (follows_of_same hu (Option.isSome_iff_ne_none.1 hb) (hp ▸ hs)).layered env hus
    · have hstays : d.get (s.apply env u) = p := by
        rw [get_apply, hu]
        cases hb : u.basePath with
        | none => simpa [updatedDirectory] using hp
        | some base =>
          have hs : p.same (d.derived s.basePath) = false := by simpa [hb] using hleaves
          simp [updatedDirectory, hp, hs]
      rw [Bool.eq_false_iff.2 hleaves, Bool.false_or]
      exact ih hus hstays

/-- A directory that no update sets is what the last base path derives. The last one that is set is
expanded and stays, unless the base path is later changed from one that derives it: then it is what the
last base path derives. -/
theorem stays_until_derived (d : Directory) (env : Environment) (base : Path) (us : List Update) :
    ((∀ u ∈ us, d.set? u = none) →
      d.get (layered env (default base) us) = d.derived (layered env (default base) us).basePath) ∧
    ∀ before u after text, us = before ++ u :: after → d.set? u = some text →
      (∀ v ∈ after, d.set? v = none) →
      d.get (layered env (default base) us) =
        if d.leaves env (expand env text) (layered env (default base) (before ++ [u])) after then
          d.derived (layered env (default base) us).basePath
        else expand env text := by
  refine ⟨Follows.layered (get_default d base) env, ?_⟩
  rintro before u after text rfl hu hafter
  have hset : d.get (layered env (default base) (before ++ [u])) = expand env text := by
    rw [layered_append, layered_cons, layered_nil, get_apply, hu, updatedDirectory]
  have hsplit : before ++ u :: after = (before ++ [u]) ++ after := by simp
  rw [hsplit, layered_append]
  exact get_layered hafter hset

/-- A directory that is set stays while the base path changes twice, and one that is not set follows. -/
theorem stays_until_derived_twice :
    let us : List Update :=
      [{ workingDirectory := some "/w" }, { basePath := some "/b" }, { basePath := some "/c" }]
    (layered ⟨[]⟩ (default ⟨"/a"⟩) us).workingDirectory = ⟨"/w"⟩ ∧
      (layered ⟨[]⟩ (default ⟨"/a"⟩) us).debugDirectory = ⟨"/c/storage/typst-debug"⟩ := by
  intro us
  have hset : expand ⟨[]⟩ "/w" = ⟨"/w"⟩ := expand_of_plain (by decide) (by decide)
  have hb : expand ⟨[]⟩ "/b" = ⟨"/b"⟩ := expand_of_plain (by decide) (by decide)
  have hc : expand ⟨[]⟩ "/c" = ⟨"/c"⟩ := expand_of_plain (by decide) (by decide)
  have hworking := (stays_until_derived working ⟨[]⟩ ⟨"/a"⟩ us).2 [] _ _ "/w" rfl rfl (by simp [set?])
  have hdebug := (stays_until_derived debug ⟨[]⟩ ⟨"/a"⟩ us).1 (by simp [us, set?])
  have hleaves : working.leaves ⟨[]⟩ ⟨"/w"⟩ (layered ⟨[]⟩ (default ⟨"/a"⟩)
      [{ workingDirectory := some "/w" }]) [{ basePath := some "/b" }, { basePath := some "/c" }] =
      false := by
    simp only [leaves, layered_cons, layered_nil, apply, hb, default, Option.map_some, Option.map_none,
      Option.getD_some, Option.getD_none, derived]
    decide
  rw [List.nil_append, hset, hleaves, if_neg Bool.false_ne_true] at hworking
  refine ⟨hworking, hdebug.trans ?_⟩
  simp only [us, layered_cons, layered_nil, apply, hc, Option.map_some, Option.map_none,
    Option.getD_some, derived]
  decide

/-- It is not enough that a directory differs from the derived one when it is set: it is moved when the
base path comes to derive it, and is changed again. -/
theorem not_stays_when_base_comes_to_derive : ¬∀ (d : Directory) (env : Environment) (base : Path)
    (before : List Update) (u : Update) (after : List Update) (text : String),
    d.set? u = some text → (∀ v ∈ after, d.set? v = none) →
    (expand env text).same
      (d.derived (layered env (default base) (before ++ [u])).basePath) = false →
    d.get (layered env (default base) (before ++ u :: after)) = expand env text := by
  intro h
  have hset : expand ⟨[]⟩ "/b/storage/typst" = ⟨"/b/storage/typst"⟩ :=
    expand_of_plain (by decide) (by decide)
  have hb : expand ⟨[]⟩ "/b" = ⟨"/b"⟩ := expand_of_plain (by decide) (by decide)
  have hc : expand ⟨[]⟩ "/c" = ⟨"/c"⟩ := expand_of_plain (by decide) (by decide)
  have hkept := h working ⟨[]⟩ ⟨"/a"⟩ [] { workingDirectory := some "/b/storage/typst" }
    [{ basePath := some "/b" }, { basePath := some "/c" }] "/b/storage/typst" rfl (by simp [set?])
    (by rw [hset]; decide)
  rw [List.nil_append, hset] at hkept
  have hmoved : working.get (layered ⟨[]⟩ (default ⟨"/a"⟩)
      [{ workingDirectory := some "/b/storage/typst" }, { basePath := some "/b" },
        { basePath := some "/c" }]) = ⟨"/c/storage/typst"⟩ := by
    simp only [get, layered_cons, layered_nil, apply, updatedDirectory, hset, hb, hc, default,
      Option.map_some, Option.map_none, Option.getD_some, Option.getD_none]
    decide
  exact absurd (hmoved.symm.trans hkept) (by decide)

end Directory

end Galley.Settings
