import Galley.Proofs.Workspace.Writing
import Galley.Proofs.Dependency.ScratchName
import Galley.Service.Compilation

/-! # Materializing a resolution

A resolution is written into a job file by file. When no two of the names are the same, the directory of
the job contains in the end just what was written. -/

namespace Galley.Service

open Workspace (Job Writes Contains inputName)
open Dependency (Resolution ResolvedFile)

variable {m m' : Machine} {w : Workspace} {job : Job} {place : Location} {r : Except Failure Unit}

/-- The files of a resolution by their names in a job. -/
def namedFiles (files : List ResolvedFile) : List (String × Text.Bytes) :=
  files.map fun f => (f.entry.scratch, f.content)

theorem writeDependencies_ends {files : List ResolvedFile} {done : Job × Except Failure Unit}
    (h : job.Holds w place m.files)
    (hn : ∀ f ∈ files, f.entry.scratch = Dependency.scratchName f.entry.source)
    (hw : Run.Ends (writeDependencies job files) m done m') :
    Writes w place m m' done.1 ∧ NoRefusal done.2 ∧
      ∀ before, Contains m.files place before → done.2 = .ok () →
        ((before ++ namedFiles files).map Prod.fst).Nodup →
        Contains m'.files place (before ++ namedFiles files) := by
  induction files generalizing m job with
  | nil =>
    obtain ⟨rfl, rfl⟩ := Run.ends_pure.1 hw
    refine ⟨⟨.refl _, .refl _ _, h⟩, noRefusal_ok (), fun before hb _ _ => ?_⟩
    simpa [namedFiles] using hb
  | cons f files ih =>
    have hrest : ∀ g ∈ files, g.entry.scratch = Dependency.scratchName g.entry.source :=
      fun g hg => hn g (List.mem_cons_of_mem _ hg)
    simp only [writeDependencies, Run.ends_bind, Run.ends_run] at hw
    obtain ⟨written, m₁, hwrite, hw⟩ := hw
    obtain ⟨hr, hfails, hwrites⟩ := Workspace.writeDependency_ends h (hn f (by simp)) hwrite
    split at hw
    · next job' =>
      obtain ⟨hone, hputs⟩ := hwrites _ rfl
      obtain ⟨hall, hr', hcontains⟩ := ih hone.holds hrest hw
      refine ⟨hone.trans hall, hr', fun before hb hok hnodup => ?_⟩
      have hsplit : before ++ namedFiles (f :: files) =
          (before ++ [(f.entry.scratch, f.content)]) ++ namedFiles files := by simp [namedFiles]
      rw [hsplit] at hnodup ⊢
      refine hcontains _ (hb.puts ?_ hputs) hok hnodup
      rw [List.map_append, List.map_append, List.nodup_append, List.nodup_append] at hnodup
      exact fun hmem => hnodup.1.2.2 _ hmem _ (by simp) rfl
    · next e =>
      obtain ⟨rfl, rfl⟩ := Run.ends_pure.1 hw
      exact ⟨hfails _ rfl, hr.of_error, by simp⟩

/-- The files of a resolution and its entrypoint, by their names in the directory of a job. -/
def materials (place : Location) (r : Resolution) : List (String × Text.Bytes) :=
  namedFiles r.files ++ [(inputName place, Text.Utf8.encode r.entrypoint)]

theorem materialize_ends {resolution : Resolution} {done : Job × Except Failure Unit}
    (h : job.Holds w place m.files)
    (hn : ∀ f ∈ resolution.files, f.entry.scratch = Dependency.scratchName f.entry.source)
    (hne : place ≠ []) (hinput : Path.IsName (inputName place))
    (hw : Run.Ends (materialize job resolution) m done m') :
    Writes w place m m' done.1 ∧ NoRefusal done.2 ∧
      (Contains m.files place [] → done.2 = .ok () →
        ((materials place resolution).map Prod.fst).Nodup →
        Contains m'.files place (materials place resolution)) := by
  simp only [materialize, Run.ends_bind] at hw
  obtain ⟨⟨job₁, r₁⟩, m₁, hdependencies, hw⟩ := hw
  obtain ⟨hall, hr, hcontains⟩ := writeDependencies_ends h hn hdependencies
  cases r₁ with
  | error e =>
    obtain ⟨rfl, rfl⟩ := Run.ends_pure.1 hw
    exact ⟨hall, hr, by simp⟩
  | ok _ =>
    simp only [Run.ends_bind] at hw
    obtain ⟨written, m₂, hwrite, hw⟩ := hw
    obtain ⟨hr', hfails, hwrites⟩ := Workspace.writeInput_ends hall.holds hne hinput hwrite
    split at hw
    · next job' =>
      obtain ⟨rfl, rfl⟩ := Run.ends_pure.1 hw
      obtain ⟨hone, hputs⟩ := hwrites _ rfl
      refine ⟨hall.trans hone, noRefusal_ok (), fun hempty _ hnodup => ?_⟩
      rw [materials, List.map_append, List.nodup_append] at hnodup
      have hbefore := hcontains [] hempty rfl (by simpa using hnodup.1)
      refine Contains.puts (by simpa using hbefore) (fun hmem => ?_) hputs
      exact hnodup.2.2 _ hmem _ (by simp) rfl
    · next e =>
      obtain ⟨rfl, rfl⟩ := Run.ends_pure.1 hw
      exact ⟨hall.trans (hfails _ rfl), hr'.of_error, by simp⟩

theorem input_of_materialize {resolution : Resolution} {job' : Job}
    (hw : Run.Ends (materialize job resolution) m (job', .ok ()) m') : job'.input = some job'.inputPath := by
  simp only [materialize, Run.ends_bind] at hw
  obtain ⟨⟨job₁, r₁⟩, m₁, -, hw⟩ := hw
  cases r₁ with
  | error e => cases (Run.ends_pure.1 hw).1
  | ok _ =>
    simp only [Run.ends_bind] at hw
    obtain ⟨written, m₂, hwrite, hw⟩ := hw
    split at hw
    · next job'' =>
      obtain ⟨he, -⟩ := Run.ends_pure.1 hw
      obtain ⟨rfl, -⟩ := Prod.mk.inj he
      exact Workspace.input_of_writeInput hwrite
    · cases (Run.ends_pure.1 hw).1

end Galley.Service
