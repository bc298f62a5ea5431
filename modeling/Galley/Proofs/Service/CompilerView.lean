import Galley.Proofs.Service.Stages

/-! # What the compiler finds

When a compilation calls the compiler, the directory of its job contains the files of the resolution
under their scratch names and the entrypoint, and nothing else. -/

namespace Galley

namespace Dependency

variable {s : Surroundings} {entrypoint : String} {directory : Option Path} {r : Resolution}

theorem files_of_resolve (h : outcome (resolve s entrypoint directory) = .ok r) :
    r.files.map ResolvedFile.entry = r.graph.entries := by
  rw [outcome_resolve] at h
  rcases discover_cases s entrypoint directory with ⟨found, hd, hp, -⟩ | ⟨e, file, hd, -, -⟩
  · rw [hd] at h
    obtain rfl : Resolution.ofSources s found entrypoint directory = r := Except.ok.inj h
    exact hp.files_eq
  · rw [hd] at h
    cases h

/-- The digests of the imported files tell them apart. -/
def Resolution.DigestsApart (r : Resolution) : Prop :=
  ∀ e ∈ r.graph.entries, ∀ e' ∈ r.graph.entries, pathDigest e.source = pathDigest e'.source →
    e.source = e'.source

/-- Files with different digests have different scratch names. -/
theorem nodup_scratch (h : outcome (resolve s entrypoint directory) = .ok r) (hd : r.DigestsApart) :
    (r.files.map (·.entry.scratch)).Nodup := by
  have hfiles := files_of_resolve h
  have hsorted : (r.files.map ResolvedFile.entry).Pairwise Entry.Before := hfiles ▸ r.graph.sorted
  refine List.pairwise_map.2 ((List.pairwise_map.1 hsorted).imp_of_mem ?_)
  intro f g hf hg hbefore hsame
  have hmem : ∀ f ∈ r.files, f.entry ∈ r.graph.entries := fun f hf => hfiles ▸ List.mem_map_of_mem hf
  rw [(materialized_of_resolve h hf).2.1, (materialized_of_resolve h hg).2.1] at hsame
  have hsource := hd _ (hmem f hf) _ (hmem g hg) (pathDigest_of_scratchName hsame)
  rw [Entry.Before, hsource] at hbefore
  have hself : g.entry.source.compare g.entry.source = .eq := Std.ReflCmp.compare_self
  rw [hself] at hbefore
  cases hbefore

/-- What is put into a text for a path is the scratch name of a file of the resolution. -/
theorem exists_file_of_replacement? (h : outcome (resolve s entrypoint directory) = .ok r)
    {from? : Option Path} {d : Typst.Import} {name : String}
    (hr : replacement? s r.graph from? d = some name) : ∃ f ∈ r.files, f.entry.scratch = name := by
  rw [replacement?] at hr
  split at hr
  · cases hr
  · obtain ⟨target, -, hr⟩ := Option.bind_eq_some_iff.1 hr
    obtain ⟨e, he, rfl⟩ := Option.map_eq_some_iff.1 hr
    have hmem : e ∈ r.files.map ResolvedFile.entry := by
      rw [files_of_resolve h]
      exact List.mem_of_find?_eq_some he
    obtain ⟨f, hf, rfl⟩ := List.mem_map.1 hmem
    exact ⟨f, hf, rfl⟩

end Dependency

namespace Service

open Workspace (Job NamesFit Contains inputName)
open Dependency (Resolution ResolvedFile Surroundings)

/-- The calls that compile a source. -/
inductive Compilation where
  | toFile (source : String) (bindings : Record) (o : Options)
  | toBytes (source : String) (bindings : Record) (o : Options)
  | fileToFile (input : Path) (output : Option Path) (bindings : Record) (o : Options)

namespace Compilation

def run (service : Service) : Compilation → Attempt Unit
  | .toFile source bindings o => do let _ ← compileToFile service source bindings o
  | .toBytes source bindings o => do let _ ← compileToBytes service source bindings o
  | .fileToFile input output bindings o => do let _ ← compileFile service input output bindings o

/-- What a call prepares: a source, its bindings, and where its imports are seen from. -/
inductive Prepares (fs : FileSystem) : Compilation → String → Record → Option Path → Prop where
  | toFile (source : String) (bindings : Record) (o : Options) :
      Prepares fs (.toFile source bindings o) source bindings o.directory
  | toBytes (source : String) (bindings : Record) (o : Options) :
      Prepares fs (.toBytes source bindings o) source bindings o.directory
  | fileToFile {input : Path} {source : String} {directory : Option Path} (output : Option Path)
      (bindings : Record) (o : Options) : Reads fs input source directory →
      Prepares fs (.fileToFile input output bindings o) source bindings directory

def options : Compilation → Options
  | .toFile _ _ o | .toBytes _ _ o | .fileToFile _ _ _ o => o

/-- Where a call wants its artifact, when it wants it somewhere. -/
inductive Wants (s : Settings) (fs : FileSystem) : Compilation → Option Path → Prop where
  | toFile (source : String) (bindings : Record) (o : Options) :
      Wants s fs (.toFile source bindings o) none
  | toBytes (source : String) (bindings : Record) (o : Options) :
      Wants s fs (.toBytes source bindings o) none
  | fileToFile {input file : Path} (output : Option Path) (bindings : Record) (o : Options) :
      fs.canonicalize input = .ok file →
      Wants s fs (.fileToFile input output bindings o) (some (o.fileTarget s fs file output))

end Compilation

variable {m m' : Machine} {service : Service} {s : Settings} {source : String} {bindings : Record}
  {directory : Option Path} {o : Options} {output : Option Path}

/-- What the compiler finds is a resolution: the directory of the job contains one file for each entry of
the graph, under its scratch name and with its content, and the entrypoint, which is the input of the
command. Every name that was put into a text is that of a file there. -/
structure Sees (s : Settings) (fs : FileSystem) (bindings : Record) (r : Resolution) (c : Command)
    (seen : FileSystem) (place : Location) : Prop where
  input : c.arguments.take 2 = ["compile", (Path.ofLocation (place ++ [inputName place])).text]
  files : r.files.map ResolvedFile.entry = r.graph.entries
  names : (r.graph.entries.map Dependency.Entry.scratch ++ [inputName place]).Nodup
  directory : seen.node? place = some .directory
  contents : ∀ rest, rest ≠ [] → ∀ node, seen.node? (place ++ rest) = some node ↔
    (∃ f ∈ r.files, rest = [f.entry.scratch] ∧ node = .file f.content) ∨
      rest = [inputName place] ∧ node = .file (Text.Utf8.encode r.entrypoint)
  present : ∀ from? d name,
    Dependency.replacement? ⟨fs, .ofSettings s, bindings⟩ r.graph from? d = some name →
      ∃ content, seen.node? (place ++ [name]) = some (.file content)

/-! ## Names in the directory of a job -/

theorem scratchName_ne_inputName {place directory : Location} {name : String} (p : Path)
    (hp : place = directory ++ [Workspace.jobStart ++ name]) :
    Dependency.scratchName p ≠ inputName place := by
  intro h
  have htext := congrArg String.toList h
  rw [hp, Workspace.toList_inputName, Dependency.toList_scratchName] at htext
  exact absurd (List.cons.inj htext).1 (by decide)

theorem map_materials (place : Location) (r : Resolution) :
    (materials place r).map Prod.fst = r.files.map (·.entry.scratch) ++ [inputName place] := by
  simp [materials, namedFiles, Function.comp_def]

/-! ## The compiler is called -/

/-- Where the materials of a resolution are all that is in the directory of a job, the compiler finds the
resolution. -/
theorem sees_of_contains {fs seen : FileSystem} {r : Resolution} {c : Command} {w : Workspace}
    {place front : Location} {name : String} {target : Path}
    (hr : prepared s fs source bindings directory = .ok r) (hd : r.DigestsApart)
    (hc : c = command s o w (.ofLocation (place ++ [inputName place])) target)
    (hp : place = front ++ [Workspace.jobStart ++ name]) (hat : seen.node? place = some .directory)
    (hcontains : ((materials place r).map Prod.fst).Nodup →
      Contains seen place (materials place r)) :
    Sees s fs bindings r c seen place := by
  obtain ⟨text, hresolve⟩ := resolve_of_prepared hr
  have hfiles := Dependency.files_of_resolve hresolve
  have hscratch : r.graph.entries.map Dependency.Entry.scratch = r.files.map (·.entry.scratch) := by
    rw [← hfiles, List.map_map]
    rfl
  have hnames : (r.files.map (·.entry.scratch) ++ [inputName place]).Nodup := by
    rw [List.nodup_append]
    refine ⟨Dependency.nodup_scratch hresolve hd, by simp, fun a ha b hb => ?_⟩
    obtain ⟨f, hf, rfl⟩ := List.mem_map.1 ha
    rw [List.mem_singleton.1 hb, (Dependency.materialized_of_resolve hresolve hf).2.1]
    exact scratchName_ne_inputName _ hp
  have hall := hcontains (map_materials place r ▸ hnames)
  have hcontents : ∀ rest, rest ≠ [] → ∀ node, seen.node? (place ++ rest) = some node ↔
      (∃ f ∈ r.files, rest = [f.entry.scratch] ∧ node = .file f.content) ∨
        rest = [inputName place] ∧ node = .file (Text.Utf8.encode r.entrypoint) := by
    intro rest hne node
    rw [hall rest hne node]
    simp [materials, namedFiles, or_and_right, exists_or]
  refine ⟨by simp [hc, command, Command.compile, Command.withRoot, Command.withFontPaths, Command.add],
    hfiles, hscratch ▸ hnames, hat, hcontents, fun from? d name' hrep => ?_⟩
  obtain ⟨f, hf, rfl⟩ := Dependency.exists_file_of_replacement? hresolve hrep
  exact ⟨f.content, (hcontents _ (by simp) _).2 (.inl ⟨f, hf, rfl, rfl⟩)⟩

theorem compileSource_calls {r : Except Failure Path} (ht : m.files.IsTree) (hn : NamesFit m)
    (h : (compileSource s source bindings directory output o).Ends m r m') :
    m'.performed = m.performed ∨ ∃ resolution c seen place,
      m'.performed = m.performed ++ [(c, seen)] ∧
      prepared s m.files source bindings directory = .ok resolution ∧
      (resolution.DigestsApart → Sees s m.files bindings resolution c seen place) := by
  cases compileSource_course ht hn h with
  | unopened ha _ => exact .inl ha.performed
  | @dropped resolution w job place done m₁ m₂ _ copied hr ha hfor hrun hdrops =>
    obtain ⟨-, hempty, ⟨front, name, hp⟩, -⟩ := hfor.holds ht
    obtain ⟨m₃, hwrites, hend⟩ := hrun.written
    have hbefore : m₃.performed = m.performed := (ha.trans hwrites.alike).performed
    rcases hend with ⟨rfl, -⟩ | ⟨⟨hperforms, -⟩, hcontains⟩
    · exact .inl (hdrops.alike.performed.trans hbefore)
    · have hcall := hdrops.alike.performed.trans hperforms.performed
      rw [hbefore] at hcall
      exact .inr ⟨resolution, _, m₃.files, place, hcall, hr, fun hd =>
        sees_of_contains hr hd rfl hp hwrites.holds.directoryAt.node (hcontains hempty)⟩

theorem ends_of_discarded {α : Type} {attempt : Attempt α} {r : Except Failure Unit}
    (h : Attempt.Ends (do let _ ← attempt) m r m') : ∃ r', attempt.Ends m r' m' := by
  rcases Attempt.ends_bind.1 h with ⟨e, h, -⟩ | ⟨a, m₁, h, hpure⟩
  · exact ⟨_, h⟩
  · obtain ⟨-, rfl⟩ := Attempt.ends_pure.1 hpure
    exact ⟨_, h⟩

/-- A call that compiles is a compilation of what it prepares, to where it wants its artifact, unless its
file cannot be read. -/
theorem Compilation.run_wants {x : Compilation} {r : Except Failure Unit}
    (h : (x.run service).Ends m r m') :
    m'.performed = m.performed ∨
      ∃ source bindings directory output m₁ r₂ m₂, x.Prepares m.files source bindings directory ∧
        x.Wants service.settings m.files output ∧ m.Alike m₁ ∧ m₁.files = m.files ∧
        (compileSource service.settings source bindings directory output x.options).Ends m₁ r₂ m₂ ∧
        m₂.Alike m' := by
  cases x with
  | toFile source bindings o =>
    obtain ⟨r', h⟩ := ends_of_discarded h
    exact .inr ⟨_, _, _, _, _, _, _, .toFile source bindings o, .toFile source bindings o, .refl _,
      rfl, h, .refl _⟩
  | toBytes source bindings o =>
    obtain ⟨r', h⟩ := ends_of_discarded h
    obtain ⟨r₁, m₁, h, ha, -⟩ := compileToBytes_ends h
    exact .inr ⟨_, _, _, _, _, _, _, .toBytes source bindings o, .toBytes source bindings o, .refl _,
      rfl, h, ha⟩
  | fileToFile input output bindings o =>
    obtain ⟨r', h⟩ := ends_of_discarded h
    rcases compileFile_targets h with ⟨-, rfl⟩ | ⟨file, source, m₁, hfile, hsource, ha, hf, h⟩
    · exact .inl rfl
    · exact .inr ⟨_, _, _, _, _, _, _, .fileToFile output bindings o ⟨file, hfile, hsource, rfl⟩,
        .fileToFile output bindings o hfile, ha, hf, h, .refl _⟩

/-- A call that compiles is a compilation of what it prepares, unless its file cannot be read. -/
theorem Compilation.run_ends {x : Compilation} {r : Except Failure Unit}
    (h : (x.run service).Ends m r m') :
    m'.performed = m.performed ∨
      ∃ source bindings directory output o m₁ r₂ m₂, x.Prepares m.files source bindings directory ∧
        m.Alike m₁ ∧ m₁.files = m.files ∧
        (compileSource service.settings source bindings directory output o).Ends m₁ r₂ m₂ ∧
        m₂.Alike m' := by
  rcases Compilation.run_wants h with
    hsame | ⟨source, bindings, directory, output, m₁, r₂, m₂, hprepares, -, ha, hf, h, ha'⟩
  · exact .inl hsame
  · exact .inr ⟨source, bindings, directory, output, x.options, m₁, r₂, m₂, hprepares, ha, hf, h, ha'⟩

/-- A call that compiles performs no command, or one. That finds the resolution that preparing comes
to on the files from before the call. -/
theorem compiler_sees_resolution {x : Compilation} {r : Except Failure Unit} (ht : m.files.IsTree)
    (hn : NamesFit m) (h : (x.run service).Ends m r m') :
    m'.performed = m.performed ∨ ∃ source bindings directory resolution m₁ c seen place,
      m'.performed = m.performed ++ [(c, seen)] ∧
      x.Prepares m.files source bindings directory ∧
      (preprocess service.settings source bindings directory).Ends m (.ok resolution) m₁ ∧
      (resolution.DigestsApart →
        Sees service.settings m.files bindings resolution c seen place) := by
  rcases Compilation.run_ends h with
    hsame | ⟨source, bindings, directory, output, o, m₁, r₂, m₂, hprepares, ha, hf, h, ha'⟩
  · exact .inl hsame
  have hn₁ : NamesFit m₁ := fun n => ha.names ▸ hn n
  rcases compileSource_calls (hf ▸ ht) hn₁ h with
    hsame | ⟨resolution, c, seen, place, hcall, hr, hsees⟩
  · exact .inl (ha'.performed.trans (hsame.trans ha.performed))
  · obtain ⟨r, m₃, hends⟩ :=
      (preprocess service.settings source bindings directory).exists_ends m
    obtain ⟨rfl, -, -⟩ := preprocess_ends hends
    rw [hf] at hr hsees
    refine .inr ⟨source, bindings, directory, resolution, m₃, c, seen, place, ?_, hprepares,
      hr ▸ hends, hsees⟩
    rw [ha'.performed, hcall, ha.performed]

/-! ## A text that imports itself -/

open Dependency (Imports Lookup Reachable exists_resolve exists_file_of_contains files_of_resolve lookup?
  materialized_of_resolve nodup_scratch paths_selfImport scratchName selfImport selfImporting
  sourceText?_selfImporting target?_selfImporting)
open Typst (Import)
open Workspace (drop_ends writeDependency_ends writeDependency_of_free writeInput_of_free)

/-- A service whose scratch directory is where the text lies. -/
def selfImportService : Service := ⟨{ Settings.default ⟨"/t"⟩ with workingDirectory := ⟨"/t"⟩ }⟩

/-- What it sees of the files that hold a text that imports itself. -/
def selfImportSurroundings : Surroundings :=
  ⟨selfImporting.files, .ofSettings selfImportService.settings, []⟩

theorem target?_selfImportSurroundings {d : Import} (h : d.path = ['a', '.', 't', 'y', 'p']) :
    selfImportSurroundings.target? (some ⟨"/t"⟩) d = some ⟨"/t/a.typ"⟩ := by
  have hcandidate : Lookup.candidate selfImportSurroundings.roots (some ⟨"/t"⟩) (String.ofList d.path) =
      Lookup.candidate selfImporting.roots (some ⟨"/t"⟩) (String.ofList d.path) := by
    rw [h]
    decide
  rw [← target?_selfImporting h]
  simp only [Surroundings.target?, lookup?, Lookup.find, hcandidate]
  rfl

theorem eq_of_imports_selfImportSurroundings {path : String} {file : Path}
    (h : Imports selfImportSurroundings (some ⟨"/t"⟩) selfImport path file) : file = ⟨"/t/a.typ"⟩ := by
  obtain ⟨d, hd, -, ht⟩ := h
  have hpath : d.path ∈ (Import.directives selfImport).map Import.path := List.mem_map_of_mem hd
  rw [paths_selfImport, List.mem_singleton] at hpath
  rw [target?_selfImportSurroundings hpath] at ht
  exact (Option.some.inj ht).symm

theorem sourceText?_selfImportSurroundings :
    selfImportSurroundings.sourceText? ⟨"/t/a.typ"⟩ = some selfImport := by
  rw [← sourceText?_selfImporting]
  rfl

theorem eq_of_reachable_selfImportSurroundings {file : Path}
    (h : Reachable selfImportSurroundings selfImport (some ⟨"/t"⟩) file) : file = ⟨"/t/a.typ"⟩ := by
  induction h with
  | direct hi => exact eq_of_imports_selfImportSurroundings hi
  | @through importer file text path _ ht hi ih =>
    subst ih
    rw [sourceText?_selfImportSurroundings] at ht
    obtain rfl : selfImport = text := Option.some.inj ht
    exact eq_of_imports_selfImportSurroundings hi

def selfImportScratch : String := "imported_fc89b5f2e4a2e54bba4aa6c4b64ad13d_a.typ"

theorem scratchName_selfImport : scratchName ⟨"/t/a.typ"⟩ = selfImportScratch := by decide +kernel

theorem render_selfImport : Template.render entrypointName selfImport [] = .ok selfImport := by cbv

theorem expand_selfImport : Typst.DataImport.expand selfImport [] = selfImport := by cbv

/-- The text that imports itself is prepared, with one file. -/
theorem prepared_selfImport :
    ∃ r f, prepared selfImportService.settings selfImporting.files selfImport [] (some ⟨"/t"⟩) = .ok r ∧
      r.DigestsApart ∧ r.files = [f] ∧
      f.entry.scratch = selfImportScratch := by
  obtain ⟨r, h, hcontains⟩ := @exists_resolve selfImportSurroundings selfImport (some ⟨"/t"⟩)
    fun file hfile => by
      rw [eq_of_reachable_selfImportSurroundings hfile]
      exact ⟨_, sourceText?_selfImportSurroundings⟩
  have hsource : ∀ f ∈ r.files, f.entry.source = ⟨"/t/a.typ"⟩ := fun f hf =>
    eq_of_reachable_selfImportSurroundings (materialized_of_resolve h hf).1
  have hentry : ∀ e ∈ r.graph.entries, e.source = ⟨"/t/a.typ"⟩ := fun e he => by
    rw [← files_of_resolve h] at he
    obtain ⟨f, hf, rfl⟩ := List.mem_map.1 he
    exact hsource f hf
  have hapart : r.DigestsApart := fun e he e' he' _ => (hentry e he).trans (hentry e' he').symm
  have hscratch : ∀ f ∈ r.files, f.entry.scratch = selfImportScratch :=
    fun f hf => by rw [(materialized_of_resolve h hf).2.1, hsource f hf, scratchName_selfImport]
  have himport : Imports selfImportSurroundings (some ⟨"/t"⟩) selfImport "a.typ" ⟨"/t/a.typ"⟩ := by
    obtain ⟨d, hd, hpath⟩ : ∃ d ∈ Import.directives selfImport, d.path = ['a', '.', 't', 'y', 'p'] := by
      rw [← List.mem_map, paths_selfImport]
      exact List.mem_singleton_self _
    exact ⟨d, hd, by rw [hpath], target?_selfImportSurroundings hpath⟩
  obtain ⟨f, hf, -⟩ := exists_file_of_contains h (hcontains _ (.direct himport))
  refine ⟨r, f, ?_, hapart, ?_, hscratch f hf⟩
  · rw [prepared, render_selfImport]
    simp only [Except.bind, expand_selfImport]
    exact h
  · have hnodup := nodup_scratch h hapart
    cases hfiles : r.files with
    | nil => simp [hfiles] at hf
    | cons g rest =>
      rw [hfiles] at hf hscratch hnodup
      cases rest with
      | nil => rw [List.mem_singleton.1 hf]
      | cons g' rest => simp [hscratch] at hnodup

/-- A machine with that text, on which the compiler does nothing. -/
def selfImportMachine : Machine where
  files := selfImporting.files
  environment := ⟨[]⟩
  programs := fun _ fs => (.exited (some 0) [] [], fs)
  names := fun _ => "n"
  clock := fun _ => "0"

theorem directoryAt_t : selfImporting.files.IsDirectoryAt ["t"] :=
  ⟨(FileSystem.Direct.root _).append rfl (by decide) (by decide), rfl⟩

def selfImportWorkspace : Workspace := ⟨⟨"/t"⟩, none⟩

def selfImportJob : Job where
  workspace := selfImportWorkspace
  directory := .ofLocation ["t", "typst_n"]

def selfImportOpened : FileSystem := selfImporting.files.set ["t", "typst_n"] .directory

theorem makeDirectory_selfImporting :
    selfImporting.files.makeDirectory (.ofLocation ["t", "typst_n"]) = .ok selfImportOpened :=
  @FileSystem.makeDirectory_child_of_free _ ["t"] "typst_n" directoryAt_t
    (by decide) (by decide) (by decide) rfl

theorem ofSettings_selfImport {m : Machine} (hf : m.files = selfImporting.files) :
    (Workspace.ofSettings selfImportService.settings).Ends m (.ok selfImportWorkspace) m := by
  have hdebug : selfImportService.settings.debug = false := rfl
  have hpath : selfImportService.settings.workingDirectory = .ofLocation ["t"] := by decide
  have hworkspace : selfImportWorkspace = ⟨.ofLocation ["t"], none⟩ := by decide
  rw [Workspace.ofSettings, hdebug, hpath, hworkspace]
  exact Workspace.openAt_of_directory (hf ▸ directoryAt_t) (by decide) (by simp)

theorem begin_selfImport {m m' : Machine} {r : Except Failure Job}
    (hf : m.files = selfImporting.files) (hn : m.names = selfImportMachine.names)
    (h : selfImportWorkspace.begin.Ends m r m') :
    r = .ok selfImportJob ∧ m'.files = selfImportOpened ∧ m'.performed = m.performed := by
  have hat : m.files.IsDirectoryAt ["t"] := hf ▸ directoryAt_t
  have hdraw : Workspace.jobStart ++ m.names m.drawn = "typst_n" := by
    rw [hn]
    rfl
  have hfree : m.files.node? (["t"] ++ ["typst_n"]) = none := by
    rw [hf]
    rfl
  have hdirectory : selfImportWorkspace.directory = .ofLocation ["t"] := by decide
  obtain ⟨rfl, rfl⟩ := Run.Ends.unique h (Workspace.begin_of_free hat hdirectory hdraw
    (by decide) (by decide) (by decide) hfree)
  exact ⟨rfl, by rw [hf]; rfl, rfl⟩

theorem holds_selfImportJob :
    selfImportJob.Holds selfImportWorkspace ["t", "typst_n"] selfImportOpened := by
  refine ⟨rfl, rfl, by simp [Job.tracked, selfImportJob], ?_, fun name node hn => ?_⟩
  · exact @FileSystem.directoryAt_of_makeDirectory _ _ ["t"] "typst_n" directoryAt_t
      (by decide) makeDirectory_selfImporting
  · have htree : selfImporting.files.IsTree := by decide
    have hfree : selfImporting.files.node? ["t", "typst_n"] = none := rfl
    rw [selfImportOpened, FileSystem.node?_set _ _ _ _ (by simp), if_neg (by simp),
      htree.none_beneath hfree (List.prefix_append _ _)] at hn
    cases hn

theorem materialize_selfImport {m m' : Machine} {r : Resolution} {f : ResolvedFile}
    {done : Job × Except Failure Unit} (hm : m.files = selfImportOpened) (hr : r.files = [f])
    (hs : f.entry.scratch = selfImportScratch)
    (h : Run.Ends (materialize selfImportJob r) m done m') : done.2 = .ok () := by
  have hholds : selfImportJob.Holds selfImportWorkspace ["t", "typst_n"] m.files :=
    hm ▸ holds_selfImportJob
  have hname : Path.IsName selfImportScratch :=
    (by decide)
  simp only [materialize, hr, hs, writeDependencies, Run.ends_bind, Run.ends_run] at h
  obtain ⟨⟨job₁, r₁⟩, m₁, ⟨r₂, m₂, hwrite, hrest⟩, h⟩ := h
  obtain ⟨job₂, rfl⟩ := writeDependency_of_free hholds hname (by decide) (by decide)
    (by rw [hm]; rfl) hwrite
  obtain ⟨hwrites, hputs⟩ := (writeDependency_ends hholds scratchName_selfImport.symm hwrite).2.2 _ rfl
  obtain ⟨he, rfl⟩ := Run.ends_pure.1 hrest
  obtain ⟨rfl, rfl⟩ := Prod.mk.inj he
  simp only [Run.ends_bind, Run.ends_run] at h
  obtain ⟨r₃, m₃, hwrite, h⟩ := h
  obtain ⟨job', rfl⟩ := writeInput_of_free hwrites.holds (by simp) (by decide)
    (by decide) (by decide) (by rw [hputs.node?, hm]; rfl) hwrite
  obtain ⟨rfl, rfl⟩ := Run.ends_pure.1 h
  rfl

theorem openJob_selfImport {m m' : Machine} {r : Except Failure (Resolution × Job)}
    (hm : m.files = selfImporting.files) (hn : m.names = selfImportMachine.names)
    (h : (openJob selfImportService.settings selfImport [] (some ⟨"/t"⟩)).Ends m r m') :
    ∃ resolution f, r = .ok (resolution, selfImportJob) ∧ resolution.files = [f] ∧
      f.entry.scratch = selfImportScratch ∧
      m'.files = selfImportOpened ∧ m'.performed = m.performed := by
  obtain ⟨resolution, f, hprepared, -, hfiles, hscratch⟩ := prepared_selfImport
  have hr : prepared selfImportService.settings m.files selfImport [] (some ⟨"/t"⟩) =
      .ok resolution := hm ▸ hprepared
  rw [openJob, Attempt.ends_bind] at h
  rcases h with ⟨e, h, -⟩ | ⟨resolution', m₁, h, h'⟩
  · cases (preprocess_ends h).1.trans hr
  obtain ⟨he, ha, hf⟩ := preprocess_ends h
  obtain rfl := Except.ok.inj (he.trans hr)
  rw [Attempt.ends_bind] at h'
  rcases h' with ⟨e, h', -⟩ | ⟨w, m₂, h', h''⟩
  · cases ((ofSettings_selfImport (hf.trans hm)).unique h').1
  obtain ⟨hw, rfl⟩ := (ofSettings_selfImport (hf.trans hm)).unique h'
  obtain rfl := Except.ok.inj hw
  rw [Attempt.ends_bind] at h''
  rcases h'' with ⟨e, h'', -⟩ | ⟨job, m₃, h'', hpure⟩
  · cases (begin_selfImport (hf.trans hm) (ha.names.trans hn) h'').1
  obtain ⟨hj, hopened, hp⟩ := begin_selfImport (hf.trans hm) (ha.names.trans hn) h''
  obtain rfl := Except.ok.inj hj
  obtain ⟨rfl, rfl⟩ := Attempt.ends_pure.1 hpure
  exact ⟨_, f, rfl, hfiles, hscratch, hopened, hp.trans ha.performed⟩

/-- The compiler is called on that text, whatever it does. -/
theorem calls_selfImport {output : Option Path} {o : Options} {m m' : Machine}
    {r : Except Failure Path} (hm : m.files = selfImporting.files)
    (hn : m.names = selfImportMachine.names)
    (h : (compileSource selfImportService.settings selfImport [] (some ⟨"/t"⟩) output o).Ends m r m') :
    m'.performed ≠ [] := by
  rcases compileSource_ends h with
    ⟨e, hopen, -⟩ | ⟨resolution, job, m₁, done, m₂, hopen, hrun, hdrop, -⟩
  · obtain ⟨_, _, he, -⟩ := openJob_selfImport hm hn hopen
    cases he
  obtain ⟨_, f, he, hfiles, hscratch, hopened, -⟩ := openJob_selfImport hm hn hopen
  obtain ⟨rfl, rfl⟩ := Prod.mk.inj (Except.ok.inj he)
  simp only [runJob, Run.ends_bind] at hrun
  obtain ⟨⟨job', r'⟩, m₃, hmaterialize, hrun⟩ := hrun
  obtain rfl : r' = .ok () := materialize_selfImport hopened hfiles hscratch hmaterialize
  simp only [Run.ends_bind, Run.ends_run, Run.ends_pure] at hrun
  obtain ⟨_, _, hinvoke, rfl, rfl⟩ := hrun
  obtain ⟨-, hinvokes⟩ := invoke_ends hinvoke
  obtain ⟨copied, hdrops⟩ := drop_ends hdrop
  simp [hdrops.alike.performed, hinvokes.performs.performed]

theorem performed_selfImport {output : Option Path} {o : Options} {m' : Machine}
    {r : Except Failure Path}
    (h : (compileSource selfImportService.settings selfImport [] (some ⟨"/t"⟩) output o).Ends
      selfImportMachine r m') : m'.performed ≠ [] := calls_selfImport rfl rfl h

/-- The call that compiles that text from where it lies. -/
def selfImportCall : Compilation := .toFile selfImport [] { directory := some ⟨"/t"⟩ }

/-- The compiler finds that text and, under its scratch name, the file that holds it. -/
theorem compiler_sees_selfImport :
    selfImportMachine.files.IsTree ∧ NamesFit selfImportMachine ∧
      ∃ r m', (selfImportCall.run selfImportService).Ends selfImportMachine r m' ∧
        ∃ resolution c seen place, m'.performed = [(c, seen)] ∧ resolution.graph.entries ≠ [] ∧
          Sees selfImportService.settings selfImportMachine.files [] resolution c seen place := by
  have ht : selfImportMachine.files.IsTree := by decide
  have hn : NamesFit selfImportMachine := fun n => by
    rw [show selfImportMachine.names n = "n" from rfl]
    decide
  obtain ⟨r, m', h⟩ := (selfImportCall.run selfImportService).exists_ends selfImportMachine
  refine ⟨ht, hn, r, m', h, ?_⟩
  obtain ⟨r', hsource⟩ := ends_of_discarded h
  rcases compiler_sees_resolution ht hn h with
    hsame | ⟨source, bindings, directory, resolution, m₁, c, seen, place, hcall, hp, hends, hsees⟩
  · exact absurd hsame (performed_selfImport hsource)
  · cases hp
    obtain ⟨resolution', f, hprepared, hapart, hfiles, -⟩ := prepared_selfImport
    obtain rfl := Except.ok.inj ((preprocess_ends hends).1.trans hprepared)
    have hview := hsees hapart
    exact ⟨_, c, seen, place, hcall, by simp [← hview.files, hfiles], hview⟩

end Service

end Galley
