import Galley.Proofs.Dependency.Protection
import Galley.Proofs.Service.CompilerView

/-! # Protected files do not matter to a source

Preparing a source reads nothing of a machine but its files, and leaves nothing but events. What files in
protected directories hold makes no difference to either. -/

namespace Galley.Service

open Dependency (Content Entry Imports Lookup Reachable Resolution Surroundings lookup?)
open Typst (Import)

variable {m m' : Machine} {s : Settings} {source : String} {bindings : Record}
  {directory : Option Path} {r : Except Failure Resolution}

/-- Preparing a source on some files. -/
def preparedLogged (s : Settings) (fs : FileSystem) (source : String) (bindings : Record)
    (directory : Option Path) : ExceptT Failure Logged Resolution := do
  let rendered ← ExceptT.mk (Template.renderLogged entrypointName source bindings)
  Logged.reportAll (Typst.DataImport.events rendered bindings)
  Dependency.resolve ⟨fs, .ofSettings s, bindings⟩ (Typst.DataImport.expand rendered bindings) directory

theorem preprocess_ends_logged : (preprocess s source bindings directory).Ends m r m' ↔
    r = outcome (preparedLogged s m.files source bindings directory) ∧
      m' = { m with
        journal := m.journal ++ reported (preparedLogged s m.files source bindings directory) } := by
  rw [preprocess, Attempt.ends_bind]
  simp only [Attempt.ends_absorb, Attempt.ends_liftM_bind, Machine.ends_reportAll,
    Machine.ends_getFiles, preparedLogged, outcome_bind, outcome_mk, outcome_report, reported_bind,
    reported_mk, reported_report]
  cases (Template.renderLogged entrypointName source bindings).value with
  | error e => simp [Except.bind, and_comm]
  | ok rendered => simp [Except.bind, Logged.reportAll, outcome, reported]

/-- What a file system holds in its protected directories makes no difference. -/
theorem preparedLogged_eq {fs fs' : FileSystem} (h : fs.SameUnprotected fs') (s : Settings)
    (source : String) (bindings : Record) (directory : Option Path) :
    preparedLogged s fs' source bindings directory = preparedLogged s fs source bindings directory := by
  have hsame : Dependency.SameUnprotected ⟨fs, .ofSettings s, bindings⟩ ⟨fs', .ofSettings s, bindings⟩ :=
    ⟨h, rfl, rfl⟩
  simp only [preparedLogged, hsame.resolve_eq]

/-- Preparing a source comes to the same on files that differ in nothing but what protected directories
hold, and no entry of a resolution is a file in one of these. -/
theorem preprocess_ignores_protected (h : m.files.SameUnprotected m'.files) (s : Settings)
    (source : String) (bindings : Record) (directory : Option Path) :
    ∃ r events,
      (preprocess s source bindings directory).Ends m r { m with journal := m.journal ++ events } ∧
      (preprocess s source bindings directory).Ends m' r { m' with journal := m'.journal ++ events } ∧
      ∀ resolution, r = .ok resolution → ∀ e ∈ resolution.graph.entries, e.source.isProtected = false := by
  refine ⟨_, _, preprocess_ends_logged.2 ⟨rfl, rfl⟩, preprocess_ends_logged.2 ⟨?_, ?_⟩,
    fun resolution hr e he => ?_⟩
  · rw [preparedLogged_eq h]
  · rw [preparedLogged_eq h]
  · rw [preparedLogged, outcome_bind] at hr
    cases hrendered : outcome (ExceptT.mk (Template.renderLogged entrypointName source bindings)) with
    | error e => simp [hrendered, Except.bind] at hr
    | ok rendered =>
      rw [hrendered] at hr
      simp only [Except.bind, outcome_bind, outcome_report] at hr
      exact Dependency.unprotected_of_resolve hr he

/-! ## A text that imports a protected file -/

open Dependency (exists_resolve paths_selfImport selfImport)

/-- A text that imports one protected file, through its parent directory and through a link. -/
def guardedImport : String := "#import \"../etc/s.typ\": x\n#import \"l.typ\": y"

/-- Files that hold that text, the link and the protected file. -/
def guardedFiles : FileSystem where
  entries := [(["etc"], .directory), (["etc", "s.typ"], .file []), (["t"], .directory),
    (["t", "a.typ"], .file (Text.Utf8.encode guardedImport)), (["t", "l.typ"], .link "/etc/s.typ")]
  current := []
  distinct := by simp

def guardedMachine : Machine := { selfImportMachine with files := guardedFiles }

/-- The same machine, with another content of the protected file. -/
def changedMachine : Machine :=
  { guardedMachine with files := guardedFiles.set ["etc", "s.typ"] (.file [1]) }

def guardedSurroundings : Surroundings := ⟨guardedFiles, .ofSettings selfImportService.settings, []⟩

theorem direct_guarded : guardedFiles.Direct ["t", "a.typ"] :=
  @FileSystem.Direct.append _ ["t"] "a.typ"
    ((FileSystem.Direct.root _).append rfl (by decide) (by decide)) rfl
    (by decide) (by decide)

theorem status_guarded :
    guardedFiles.status ⟨"/t/a.typ"⟩ = .ok (.file (Text.Utf8.encode guardedImport)) :=
  FileSystem.status_of_direct direct_guarded rfl (by simp) (by decide)

theorem target?_guarded {d : Import} (h : d.path = ['a', '.', 't', 'y', 'p']) :
    guardedSurroundings.target? (some ⟨"/t"⟩) d = some ⟨"/t/a.typ"⟩ := by
  have hcanonical : guardedSurroundings.files.canonicalize ⟨"/t/a.typ"⟩ = .ok ⟨"/t/a.typ"⟩ :=
    FileSystem.canonicalize_of_direct direct_guarded rfl (by simp) (by decide)
  have hcandidate : Lookup.candidate guardedSurroundings.roots (some ⟨"/t"⟩) "a.typ" = ⟨"/t/a.typ"⟩ := by
    decide
  have hprotected : (⟨"/t/a.typ"⟩ : Path).isProtected = false := by decide
  have hfile : guardedSurroundings.files.isFile ⟨"/t/a.typ"⟩ = true := by
    rw [FileSystem.isFile, guardedSurroundings, status_guarded]
  rw [Surroundings.target?, Import.isAbsolute, h, if_neg (by decide), lookup?, Lookup.find,
    if_neg (by decide)]
  simp only [hcandidate, hcanonical, hprotected, hfile]
  rfl

theorem sourceText?_guarded : guardedSurroundings.sourceText? ⟨"/t/a.typ"⟩ = some guardedImport := by
  have hread : guardedSurroundings.files.read ⟨"/t/a.typ"⟩ = .ok (Text.Utf8.encode guardedImport) :=
    FileSystem.read_eq_ok_iff.2 status_guarded
  have ht : Template.isTemplateFile ⟨"/t/a.typ"⟩ = false := by decide
  rw [Surroundings.sourceText?, hread]
  simp only [Text.Utf8.decodeLossy_encode, ht]
  rfl

/-- The protected file is not reached, so there is one file to reach. -/
theorem eq_of_reachable_guarded {file : Path}
    (h : Reachable guardedSurroundings selfImport (some ⟨"/t"⟩) file) : file = ⟨"/t/a.typ"⟩ := by
  obtain ⟨place, content, hfile⟩ := h.exists_isFileAt
  have hunprotected := h.unprotected.1
  have hnode := hfile.node
  rw [FileSystem.node?] at hnode
  split at hnode
  · cases hnode
  · obtain ⟨front, back, he, -⟩ := List.lookup_eq_some_iff.1 hnode
    have hmem : (place, Node.file content) ∈ guardedFiles.entries := by
      change (place, Node.file content) ∈ guardedSurroundings.files.entries
      simp [he]
    rw [hfile.path] at hunprotected ⊢
    simp only [guardedFiles, List.mem_cons, Prod.mk.injEq, reduceCtorEq, and_false, false_or,
      Node.file.injEq, List.not_mem_nil, or_false] at hmem
    rcases hmem with ⟨rfl, -⟩ | ⟨rfl, -⟩
    · exact absurd hunprotected (by decide)
    · rfl

/-- Whatever the protected file holds, the text that imports it is prepared alike, without it. -/
theorem preprocess_ignores_protected_guarded :
    guardedMachine.files.SameUnprotected changedMachine.files ∧
      guardedMachine.files.node? ["etc", "s.typ"] ≠ changedMachine.files.node? ["etc", "s.typ"] ∧
      ∃ resolution events,
        (preprocess selfImportService.settings selfImport [] (some ⟨"/t"⟩)).Ends guardedMachine
          (.ok resolution) { guardedMachine with journal := guardedMachine.journal ++ events } ∧
        (preprocess selfImportService.settings selfImport [] (some ⟨"/t"⟩)).Ends changedMachine
          (.ok resolution) { changedMachine with journal := changedMachine.journal ++ events } ∧
        resolution.graph.contains ⟨"/t/a.typ"⟩ = true ∧
        ∀ e ∈ resolution.graph.entries, e.source.isProtected = false := by
  have hsame : guardedMachine.files.SameUnprotected changedMachine.files :=
    FileSystem.sameUnprotected_set (by decide) rfl
  obtain ⟨resolution, h, hcontains⟩ := @exists_resolve guardedSurroundings selfImport (some ⟨"/t"⟩)
    fun file hfile => by
      rw [eq_of_reachable_guarded hfile]
      exact ⟨_, sourceText?_guarded⟩
  have himport : Imports guardedSurroundings (some ⟨"/t"⟩) selfImport "a.typ" ⟨"/t/a.typ"⟩ := by
    obtain ⟨d, hd, hpath⟩ : ∃ d ∈ Import.directives selfImport, d.path = ['a', '.', 't', 'y', 'p'] := by
      rw [← List.mem_map, paths_selfImport]
      exact List.mem_singleton_self _
    exact ⟨d, hd, by rw [hpath], target?_guarded hpath⟩
  have hprepared : prepared selfImportService.settings guardedMachine.files selfImport []
      (some ⟨"/t"⟩) = .ok resolution := by
    rw [prepared, render_selfImport]
    simp only [Except.bind, expand_selfImport]
    exact h
  obtain ⟨r, events, hends, hends', hunprotected⟩ :=
    preprocess_ignores_protected hsame selfImportService.settings selfImport [] (some ⟨"/t"⟩)
  obtain rfl := (preprocess_ends hends).1.trans hprepared
  exact ⟨hsame, by decide, resolution, events, hends, hends', hcontains _ (.direct himport),
    hunprotected resolution rfl⟩

end Galley.Service
