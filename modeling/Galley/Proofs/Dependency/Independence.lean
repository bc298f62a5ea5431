import Galley.Proofs.Dependency.Redirection

/-! # What a file becomes does not depend on who imports it

Everything that a file found imports is found as well, so the graph answers for its imports as
looking them up does. What the compiler gets for the file is then said without the graph: by its
octets, the roots of the project and, when it is a template, the bindings. -/

namespace Galley

open Typst (Import)

/-- A text is redirected alike by what agrees on its directives. -/
theorem Typst.Import.redirect_congr {text : String} {f g : Import → Option String}
    (h : ∀ d ∈ Import.directives text, f d = g d) :
    Import.redirect text f = Import.redirect text g := by
  have hp : (Import.pieces text.toList).map (Import.Piece.redirect f) =
      (Import.pieces text.toList).map (Import.Piece.redirect g) := by
    refine List.map_congr_left fun piece hm => ?_
    cases piece with
    | char c => rfl
    | directive d =>
      have hd : d ∈ Import.directives text := List.mem_filterMap.2 ⟨_, hm, rfl⟩
      simp only [Import.Piece.redirect, h d hd]
  rw [Import.redirect, hp, Import.redirect]

namespace Dependency

/-- What the compiler gets for a file with this content: its imports that mean files have the
scratch names of those. -/
def Surroundings.materialized (s : Surroundings) (file : Path) (content : Content) : Text.Bytes :=
  emitted content (Import.redirect content.text fun d =>
    (s.target? file.parent? d).map scratchName)

variable {s s' : Surroundings} {entrypoint entrypoint' : String} {directory directory' : Option Path}

/-- Imports mean the same where the files and the roots are. -/
theorem target?_congr (hf : s'.files = s.files) (hr : s'.roots = s.roots) (from? : Option Path)
    (d : Import) : s'.target? from? d = s.target? from? d := by
  rw [Surroundings.target?, hf, hr, Surroundings.target?]

theorem materialized_congr (hf : s'.files = s.files) (hr : s'.roots = s.roots) (file : Path)
    (content : Content) : s'.materialized file content = s.materialized file content := by
  simp only [Surroundings.materialized, target?_congr hf hr]

/-- A file has one content under the same bindings, and under any when it is no template. -/
theorem Content.IsOf.unique {file : Path} {content content' : Content}
    (h : content.IsOf s file) (h' : content'.IsOf s' file) (hf : s'.files = s.files)
    (hb : s'.bindings = s.bindings ∨ Template.isTemplateFile file = false) :
    content' = content := by
  obtain ⟨bytes, hread, hload⟩ := h.loaded
  obtain ⟨bytes', hread', hload'⟩ := h'.loaded
  obtain rfl : bytes' = bytes := by
    rw [hf, hread] at hread'
    exact (Except.ok.inj hread').symm
  have hsame : outcome (Content.load s'.bindings file bytes') =
      outcome (Content.load s.bindings file bytes') := by
    rw [outcome_load, outcome_load]
    rcases hb with hb | hb
    · rw [hb]
    · rw [hb, if_neg Bool.false_ne_true, if_neg Bool.false_ne_true]
  rw [hload, hload'] at hsame
  exact Except.ok.inj hsame

/-- Each file of a resolution is a reachable one, under its own scratch name, with its content
materialized. -/
theorem materialized_of_resolve {r : Resolution}
    (h : outcome (resolve s entrypoint directory) = .ok r) {f : ResolvedFile} (hf : f ∈ r.files) :
    Reachable s entrypoint directory f.entry.source ∧
      f.entry.scratch = scratchName f.entry.source ∧
      ∃ content, content.IsOf s f.entry.source ∧
        f.content = s.materialized f.entry.source content := by
  rw [outcome_resolve] at h
  rcases discover_cases s entrypoint directory with ⟨found, hd, hp, hall⟩ | ⟨e, file, hd, -, -⟩
  · rw [hd] at h
    obtain rfl : Resolution.ofSources s found entrypoint directory = r := Except.ok.inj h
    obtain ⟨e, he, hf⟩ := List.mem_filterMap.1 hf
    obtain ⟨x, hx, hx', rfl⟩ := hp.exists_source he
    rw [hx'] at hf
    obtain rfl : resolvedFile s (Graph.ofSources found) (.of x.path x.importedAs) x = f := by
      simpa using hf
    have hc := hp.content x hx
    refine ⟨hp.reachable hx, rfl, x.content, hc, ?_⟩
    -- The graph holds whatever the imports of this file mean.
    have hreplaced : ∀ d ∈ Import.directives x.content.text,
        replacement? s (Graph.ofSources found) x.path.parent? d =
          (s.target? x.path.parent? d).map scratchName := by
      intro d hm
      exact hp.replacement?_eq fun file ht =>
        hall file (.through (hp.reachable hx) hc.text ⟨d, hm, rfl, ht⟩)
    have hredirect := Import.redirect_congr hreplaced
    simp only [resolvedFile, redirect, Entry.of, Surroundings.materialized]
    rw [hredirect]
  · rw [hd] at h
    cases h

/-- A resolution has the file of each path that its graph holds. -/
theorem exists_file_of_contains {r : Resolution}
    (h : outcome (resolve s entrypoint directory) = .ok r) {p : Path}
    (hp : r.graph.contains p = true) : ∃ f ∈ r.files, f.entry.source.same p = true := by
  rw [outcome_resolve] at h
  rcases discover_cases s entrypoint directory with ⟨found, hd, hprogress, -⟩ | ⟨e, file, hd, -, -⟩
  · rw [hd] at h
    obtain rfl : Resolution.ofSources s found entrypoint directory = r := Except.ok.inj h
    obtain ⟨e, he⟩ := Option.isSome_iff_exists.1 hp
    have hm : e ∈ (Resolution.ofSources s found entrypoint directory).files.map
        ResolvedFile.entry := by
      rw [hprogress.files_eq]
      exact List.mem_of_find?_eq_some he
    obtain ⟨f, hf, rfl⟩ := List.mem_map.1 hm
    have hs := List.find?_some he
    exact ⟨f, hf, hs⟩
  · rw [hd] at h
    cases h

theorem isTemplateFile_congr {p q : Path} (h : p.same q = true) :
    Template.isTemplateFile p = Template.isTemplateFile q := by
  have hc := Path.same_iff.1 h
  rw [Template.isTemplateFile, Path.fileName?, hc, ← Path.fileName?, ← Template.isTemplateFile]

/-- A file of two resolutions over the same files, whatever they begin with, has one scratch name
and one content in both; so it does under other bindings unless it is a template. -/
theorem materialized_alike (hfiles : s'.files = s.files) (hroots : s'.roots = s.roots)
    {r r' : Resolution} (h : outcome (resolve s entrypoint directory) = .ok r)
    (h' : outcome (resolve s' entrypoint' directory') = .ok r') {p : Path}
    (hp : r.graph.contains p = true) (hp' : r'.graph.contains p = true)
    (hb : s'.bindings = s.bindings ∨ Template.isTemplateFile p = false) :
    (∃ f ∈ r.files, f.entry.source.same p = true) ∧
    (∃ f' ∈ r'.files, f'.entry.source.same p = true) ∧
    ∀ f ∈ r.files, ∀ f' ∈ r'.files,
      f.entry.source.same p = true → f'.entry.source.same p = true →
      f'.entry.scratch = f.entry.scratch ∧ f'.content = f.content := by
  refine ⟨exists_file_of_contains h hp, exists_file_of_contains h' hp', ?_⟩
  intro f hf f' hf' hs hs'
  obtain ⟨hreach, hscratch, content, hcontent, he⟩ := materialized_of_resolve h hf
  obtain ⟨hreach', hscratch', content', hcontent', he'⟩ := materialized_of_resolve h' hf'
  have hsource : f'.entry.source = f.entry.source := by
    obtain ⟨place, bytes, hplace⟩ := hreach.exists_isFileAt
    obtain ⟨place', bytes', hplace'⟩ := hreach'.exists_isFileAt
    rw [hfiles] at hplace'
    refine hplace'.eq_of_same hplace ?_
    rw [Path.same_iff] at hs hs' ⊢
    rw [hs', hs]
  rw [hsource] at hscratch' hcontent' he'
  have ht : Template.isTemplateFile f.entry.source = Template.isTemplateFile p :=
    isTemplateFile_congr hs
  obtain rfl : content' = content := hcontent.unique hcontent' hfiles (ht ▸ hb)
  exact ⟨hscratch'.trans hscratch.symm, by rw [he', he, materialized_congr hfiles hroots]⟩

/-! ## Two ways to the file that imports itself -/

/-- Where all reachable files have a text there is a resolution, and its graph holds them. -/
theorem exists_resolve (h : ∀ file, Reachable s entrypoint directory file →
      ∃ text, s.sourceText? file = some text) :
    ∃ r, outcome (resolve s entrypoint directory) = .ok r ∧
      ∀ file, Reachable s entrypoint directory file → r.graph.contains file = true := by
  rcases discover_cases s entrypoint directory with ⟨found, hd, hp, hall⟩ | ⟨e, file, -, hr, hn⟩
  · have hresolve := outcome_resolve s entrypoint directory
    rw [hd] at hresolve
    refine ⟨_, hresolve, fun file hfile => ?_⟩
    have hscratch := hp.scratch?_eq (hall file hfile)
    cases hg : (Graph.ofSources found).get? file with
    | none => simp [Graph.scratch?, hg] at hscratch
    | some e => simp [Resolution.ofSources, Graph.contains, hg]
  · obtain ⟨text, ht⟩ := h file hr
    rw [hn] at ht
    cases ht

/-- The same files and roots with a value for templates. -/
def selfImportingDraft : Surroundings := { selfImporting with bindings := [("draft", .bool true)] }

/-- Another text that imports the file, from the directory of the templates. -/
def titledImport : String := "= Title\n#import \"a.typ\": *"

theorem target?_selfImportingDraft {d : Import} (h : d.path = ['a', '.', 't', 'y', 'p']) :
    selfImportingDraft.target? none d = some ⟨"/t/a.typ"⟩ := by
  have hcandidate : Lookup.candidate selfImporting.roots none (String.ofList d.path) =
      Lookup.candidate selfImporting.roots (some ⟨"/t"⟩) (String.ofList d.path) := by
    rw [h]
    decide
  have hsame : selfImportingDraft.target? none d = selfImporting.target? (some ⟨"/t"⟩) d := by
    simp only [Surroundings.target?, lookup?, Lookup.find, selfImportingDraft, hcandidate]
    rfl
  rw [hsame, target?_selfImporting h]

theorem paths_selfImport :
    (Import.directives selfImport).map Import.path = [['a', '.', 't', 'y', 'p']] := by cbv

theorem paths_titledImport :
    (Import.directives titledImport).map Import.path = [['a', '.', 't', 'y', 'p']] := by cbv

theorem imports_titledImport :
    Imports selfImportingDraft none titledImport "a.typ" ⟨"/t/a.typ"⟩ := by
  obtain ⟨d, hd, hpath⟩ : ∃ d ∈ Import.directives titledImport,
      d.path = ['a', '.', 't', 'y', 'p'] := by
    rw [← List.mem_map, paths_titledImport]
    exact List.mem_singleton_self _
  exact ⟨d, hd, by rw [hpath], target?_selfImportingDraft hpath⟩

theorem imports_selfImport :
    Imports selfImporting (some ⟨"/t"⟩) selfImport "a.typ" ⟨"/t/a.typ"⟩ := by
  obtain ⟨d, hd, hpath⟩ : ∃ d ∈ Import.directives selfImport,
      d.path = ['a', '.', 't', 'y', 'p'] := by
    rw [← List.mem_map, paths_selfImport]
    exact List.mem_singleton_self _
  exact ⟨d, hd, by rw [hpath], target?_selfImporting hpath⟩

theorem sourceText?_selfImportingDraft :
    selfImportingDraft.sourceText? ⟨"/t/a.typ"⟩ = some selfImport := by
  have ht : Template.isTemplateFile ⟨"/t/a.typ"⟩ = false := by decide
  rw [← sourceText?_selfImporting]
  simp only [Surroundings.sourceText?, ht]
  rfl

theorem eq_of_reachable_titledImport {file : Path}
    (h : Reachable selfImportingDraft titledImport none file) : file = ⟨"/t/a.typ"⟩ := by
  induction h with
  | direct hi =>
    obtain ⟨d, hd, -, ht⟩ := hi
    have hpath : d.path ∈ (Import.directives titledImport).map Import.path := List.mem_map_of_mem hd
    rw [paths_titledImport, List.mem_singleton] at hpath
    rw [target?_selfImportingDraft hpath] at ht
    exact (Option.some.inj ht).symm
  | @through importer file text path _ ht hi ih =>
    subst ih
    rw [sourceText?_selfImportingDraft] at ht
    obtain rfl : selfImport = text := Option.some.inj ht
    obtain ⟨d, hd, hpath, ht⟩ := hi
    exact eq_of_imports_selfImport ⟨d, hd, hpath, ht⟩

/-- Imported from two texts under different bindings, the file that imports itself becomes the
same. -/
theorem materialized_alike_selfImport :
    ∃ r r', outcome (resolve selfImporting selfImport (some ⟨"/t"⟩)) = .ok r ∧
      outcome (resolve selfImportingDraft titledImport none) = .ok r' ∧
      ∃ f ∈ r.files, ∃ f' ∈ r'.files, f.entry.source = ⟨"/t/a.typ"⟩ ∧
        f'.entry.scratch = f.entry.scratch ∧ f'.content = f.content := by
  obtain ⟨r, h, hcontains⟩ := @exists_resolve selfImporting selfImport (some ⟨"/t"⟩)
    fun file hfile => by
      rw [eq_of_reachable_selfImport hfile]
      exact ⟨_, sourceText?_selfImporting⟩
  obtain ⟨r', h', hcontains'⟩ := @exists_resolve selfImportingDraft titledImport none
    fun file hfile => by
      rw [eq_of_reachable_titledImport hfile]
      exact ⟨_, sourceText?_selfImportingDraft⟩
  have hp := hcontains _ (.direct imports_selfImport)
  have hp' := hcontains' _ (.direct imports_titledImport)
  obtain ⟨⟨f, hf, hs⟩, ⟨f', hf', hs'⟩, hall⟩ :=
    @materialized_alike selfImporting selfImportingDraft _ _ _ _ rfl rfl r r' h h' _ hp hp'
      (.inr (by decide))
  have hreach := (materialized_of_resolve h hf).1
  exact ⟨r, r', h, h', f, hf, f', hf', eq_of_reachable_selfImport hreach, hall f hf f' hf' hs hs'⟩

end Dependency

end Galley
