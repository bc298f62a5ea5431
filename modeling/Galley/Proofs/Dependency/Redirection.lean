import Galley.Proofs.Dependency.Closure
import Galley.Proofs.Dependency.ScratchName
import Galley.Proofs.Typst.Outside

/-! # Resolutions redirect every import

Each import of the entrypoint or of a discovered file was visited from the same directory, so the
file that it means is in the graph. Its scratch name can stand in the place of any path, unless the
name of a file holds a quote; so the texts of a resolution are scanned like those they come from. -/

namespace Galley.Dependency

open Typst (Import)

/-! ## Scratch names -/

/-- The scratch name of a file can stand in the place of a path unless the file's name holds a
quote. -/
theorem fits_scratchName {file : Path} (h : '"' ∉ file.fileName.toList) :
    Import.Fits (scratchName file).toList := by
  have hs : ∃ digits, '"' ∉ digits ∧ (scratchName file).toList =
      ['i', 'm', 'p', 'o', 'r', 't', 'e', 'd', '_'] ++ digits ++ '_' :: file.fileName.toList := by
    refine ⟨_, Text.Hex.not_mem_encode (by decide) (pathDigest file), ?_⟩
    rw [toList_scratchName, List.append_assoc]
  obtain ⟨digits, hd, hs⟩ := hs
  rw [hs]
  refine ⟨by simp, ?_, ?_⟩
  · simp [hd, h]
  · rintro gap tail hg he
    cases gap with
    | nil => exact absurd (List.cons.inj he).1 (by decide)
    | cons c gap =>
      have hc := hg c (by simp)
      rw [← (List.cons.inj he).1] at hc
      exact absurd hc (by decide)

/-! ## Texts with their imports redirected -/

/-- What becomes of an import: when it means a file, it gets the scratch name of that file, which is
in the graph and among the files; else it keeps its path. -/
structure RedirectedImport (s : Surroundings) (r : Resolution) (directory : Option Path)
    (before after : Import) : Prop where
  bindings : after.bindings = before.bindings
  found : ∀ file, s.target? directory before = some file →
    after.path = (scratchName file).toList ∧
      ∃ e ∈ r.graph.entries, e.source = file ∧ e ∈ r.files.map ResolvedFile.entry
  kept : s.target? directory before = none → after.path = before.path

/-- What becomes of a text: its imports are redirected, and the octets outside of the paths of those
that mean a file are kept. -/
structure RedirectedText (s : Surroundings) (r : Resolution) (directory : Option Path)
    (before after : String) : Prop where
  imports : List.Forall₂
    (fun a b => RedirectedImport s r directory a.directive b.directive)
    (Import.scan before) (Import.scan after)
  outside :
    let pairs := Import.replaced (fun d => (s.target? directory d).isSome)
      (Import.scan before) (Import.scan after)
    Import.outside (Text.Utf8.encode before) 0 (pairs.map (·.1.pathSpan)) =
      Import.outside (Text.Utf8.encode after) 0 (pairs.map (·.2.pathSpan))

variable {s : Surroundings} {entrypoint : String} {directory : Option Path} {found : List Source}

/-- The graph has the scratch name of each file found. -/
theorem Progress.scratch?_eq (h : Progress s entrypoint directory found) {file : Path}
    (hfile : Holds found file) : (Graph.ofSources found).scratch? file = some (scratchName file) := by
  obtain ⟨x, hx, rfl⟩ := hfile
  have he : Entry.of x.path x.importedAs ∈ (Graph.ofSources found).entries :=
    h.mem_entries.2 ⟨x, hx, rfl⟩
  rw [Graph.scratch?, Graph.get?]
  cases hf : (Graph.ofSources found).entries.find? fun e => e.source.same x.path with
  | none =>
    have hn := List.find?_eq_none.1 hf _ he
    simp [Entry.of, Path.same] at hn
  | some e =>
    obtain ⟨y, hy, rfl⟩ := h.mem_entries.1 (List.mem_of_find?_eq_some hf)
    have hs : y.path.same x.path = true := by simpa [Entry.of] using List.find?_some hf
    have hp := (h.reachable hy).eq_of_same (h.reachable hx) hs
    rw [← hp]
    rfl

/-- An import whose file, if it means one, was found gets the scratch name of that file. -/
theorem Progress.replacement?_eq (h : Progress s entrypoint directory found)
    {from? : Option Path} {d : Import}
    (hd : ∀ file, s.target? from? d = some file → Holds found file) :
    replacement? s (Graph.ofSources found) from? d = (s.target? from? d).map scratchName := by
  have hr : replacement? s (Graph.ofSources found) from? d =
      (s.target? from? d).bind (Graph.ofSources found).scratch? := by
    unfold replacement? Surroundings.target?
    split <;> rfl
  rw [hr]
  cases ht : s.target? from? d with
  | none => rfl
  | some file => rw [Option.bind_some, Option.map_some, h.scratch?_eq (hd file ht)]

/-- An import whose file, if it means one, was found is redirected. -/
theorem Progress.redirectedImport (h : Progress s entrypoint directory found)
    {from? : Option Path} {d : Import}
    (hd : ∀ file, s.target? from? d = some file → Holds found file) :
    RedirectedImport s (.ofSources s found entrypoint directory) from? d
      (Import.moved (replacement? s (Graph.ofSources found) from?) d) := by
  have hr := h.replacement?_eq hd
  cases ht : s.target? from? d with
  | none =>
    rw [ht] at hr
    have hm : Import.moved (replacement? s (Graph.ofSources found) from?) d = d := by
      rw [Import.moved, hr]
      rfl
    rw [hm]
    exact ⟨rfl, by simp [ht], fun _ => rfl⟩
  | some file =>
    rw [ht] at hr
    have hm : Import.moved (replacement? s (Graph.ofSources found) from?) d =
        { d with path := (scratchName file).toList } := by
      rw [Import.moved, hr]
      rfl
    rw [hm]
    refine ⟨rfl, fun other ho => ?_, by simp [ht]⟩
    obtain rfl : file = other := by simpa [ht] using ho
    obtain ⟨x, hx, rfl⟩ := hd file ht
    have he : Entry.of x.path x.importedAs ∈ (Graph.ofSources found).entries :=
      h.mem_entries.2 ⟨x, hx, rfl⟩
    refine ⟨?_, .of x.path x.importedAs, ?_, ?_, ?_⟩
    · dsimp only
    · exact he
    · rw [Entry.of]
    · rw [h.files_eq]
      exact he

/-- A text whose imports mean files that were found is redirected. -/
theorem Progress.redirectedText (h : Progress s entrypoint directory found)
    (hnames : ∀ file, Holds found file → '"' ∉ file.fileName.toList)
    {from? : Option Path} {text : String}
    (htext : ∀ d ∈ Import.directives text, ∀ file, s.target? from? d = some file →
      Holds found file) :
    RedirectedText s (.ofSources s found entrypoint directory) from? text
      (redirect s (Graph.ofSources found) from? text) := by
  have hr : ∀ d ∈ Import.directives text,
      replacement? s (Graph.ofSources found) from? d = (s.target? from? d).map scratchName :=
    fun d hd => h.replacement?_eq (htext d hd)
  have hfit : Import.AllFit (replacement? s (Graph.ofSources found) from?) text.toList := by
    intro d hd q hq
    have hmem : d ∈ Import.directives text := List.mem_filterMap.2 ⟨_, hd, rfl⟩
    rw [hr d hmem] at hq
    obtain ⟨file, ht, rfl⟩ := Option.map_eq_some_iff.1 hq
    exact fits_scratchName (hnames file (htext d hmem file ht))
  refine ⟨?_, ?_⟩
  · obtain ⟨hlen, hzip⟩ := List.forall₂_iff_zip.1 (Import.forall₂_scan_redirect hfit)
    refine List.forall₂_iff_zip.2 ⟨hlen, fun {a b} hab => ?_⟩
    have hmem := Import.directive_mem_of_mem_scan (List.of_mem_zip hab).1
    rw [hzip hab]
    exact h.redirectedImport (htext _ hmem)
  · have ho := Import.outside_redirect hfit
    have hp : Import.replaced
          (fun d => (replacement? s (Graph.ofSources found) from? d).isSome)
          (Import.scan text) (Import.scan (redirect s (Graph.ofSources found) from? text)) =
        Import.replaced (fun d => (s.target? from? d).isSome)
          (Import.scan text) (Import.scan (redirect s (Graph.ofSources found) from? text)) := by
      refine List.filter_congr fun pair hpair => ?_
      show (replacement? s (Graph.ofSources found) from? pair.1.directive).isSome =
        (s.target? from? pair.1.directive).isSome
      rw [hr _ (Import.directive_mem_of_mem_scan (List.of_mem_zip hpair).1), Option.isSome_map]
    simp only [redirect] at hp ⊢
    rw [← hp]
    exact ho

/-- What is emitted for a file reads as its redirected text. -/
theorem decodeLossy_emitted {file : Path} {content : Content} (h : content.IsOf s file)
    (redirected : String) :
    Text.Utf8.decodeLossy (emitted content redirected) = redirected := by
  unfold emitted
  split
  · next raw hraw =>
    split
    · next heq => rw [h.raw raw hraw, heq]
    · exact Text.Utf8.decodeLossy_encode redirected
  · exact Text.Utf8.decodeLossy_encode redirected

/-- Every import of a resolution that means a file has the scratch name of that file, whose content
is at hand, and nothing else is changed in the texts. -/
theorem resolve_redirects_imports {r : Resolution}
    (hnames : ∀ file, Reachable s entrypoint directory file → '"' ∉ file.fileName.toList)
    (h : outcome (resolve s entrypoint directory) = .ok r) :
    RedirectedText s r directory entrypoint r.entrypoint ∧
      ∀ file ∈ r.files, Reachable s entrypoint directory file.entry.source ∧
        ∃ text, s.sourceText? file.entry.source = some text ∧
          RedirectedText s r file.entry.source.parent? text
            (Text.Utf8.decodeLossy file.content) := by
  rw [outcome_resolve] at h
  rcases discover_cases s entrypoint directory with ⟨found, hf, hp, hall⟩ | ⟨e, file, hf, -, -⟩
  · rw [hf] at h
    obtain rfl : Resolution.ofSources s found entrypoint directory = r := Except.ok.inj h
    have hnames' : ∀ file, Holds found file → '"' ∉ file.fileName.toList := by
      rintro file ⟨x, hx, rfl⟩
      exact hnames _ (hp.reachable hx)
    refine ⟨hp.redirectedText hnames' ?_, ?_⟩
    · intro d hd file ht
      exact hall file (.direct ⟨d, hd, rfl, ht⟩)
    · intro file hfile
      obtain ⟨e, he, hfile⟩ := List.mem_filterMap.1 hfile
      obtain ⟨x, hx, hx', rfl⟩ := hp.exists_source he
      rw [hx'] at hfile
      obtain rfl : resolvedFile s (Graph.ofSources found) (.of x.path x.importedAs) x = file := by
        simpa using hfile
      have hc := hp.content x hx
      refine ⟨hp.reachable hx, x.content.text, hc.text, ?_⟩
      simp only [resolvedFile]
      rw [decodeLossy_emitted hc]
      refine hp.redirectedText hnames' ?_
      intro d hd other ht
      exact hall other (.through (hp.reachable hx) hc.text ⟨d, hd, rfl, ht⟩)
  · rw [hf] at h
    cases h

/-! ## A file that imports itself -/

/-- A text with one import. -/
def selfImport : String := "#import \"a.typ\": x"

/-- Surroundings with one file, which holds that text. -/
def selfImporting : Surroundings where
  files := ⟨[(["t"], .directory), (["t", "a.typ"], .file (Text.Utf8.encode selfImport))], [],
    by decide⟩
  roots := ⟨⟨"/t"⟩, ⟨"/t"⟩⟩
  bindings := []

theorem locate_selfImporting :
    selfImporting.files.locate ⟨"/t/a.typ"⟩ = .ok (.taken ["t", "a.typ"]) := by
  have hnames : selfImporting.files.namesFromRoot ⟨"/t/a.typ"⟩ =
      [[], ['t'], ['a', '.', 't', 'y', 'p']] := by decide
  have hdirectory : selfImporting.files.node? ["t"] = some .directory := rfl
  have hfile : selfImporting.files.node? ["t", "a.typ"] =
      some (.file (Text.Utf8.encode selfImport)) := rfl
  have hfirst : String.ofList ['t'] = "t" := by decide
  have hlast : String.ofList ['a', '.', 't', 'y', 'p'] = "a.typ" := by decide
  rw [FileSystem.locate, if_neg (by decide), if_neg (by decide), if_neg (by decide), hnames,
    FileSystem.walk, if_pos (by decide), FileSystem.walk, if_neg (by decide), if_neg (by decide),
    if_neg (by decide)]
  simp only [hfirst, List.nil_append, hdirectory]
  rw [FileSystem.walk, if_neg (by decide), if_neg (by decide), if_neg (by decide)]
  simp only [hlast, List.cons_append, List.nil_append, hfile]
  rfl

theorem status_selfImporting : selfImporting.files.status ⟨"/t/a.typ"⟩ =
    .ok (.file (Text.Utf8.encode selfImport)) := by
  rw [FileSystem.status_eq_ok_iff]
  exact ⟨_, FileSystem.find_eq_ok_iff.2 locate_selfImporting, rfl⟩

theorem sourceText?_selfImporting :
    selfImporting.sourceText? ⟨"/t/a.typ"⟩ = some selfImport := by
  have hread : selfImporting.files.read ⟨"/t/a.typ"⟩ = .ok (Text.Utf8.encode selfImport) :=
    FileSystem.read_eq_ok_iff.2 status_selfImporting
  have ht : Template.isTemplateFile ⟨"/t/a.typ"⟩ = false := by decide
  rw [Surroundings.sourceText?, hread]
  simp only [Text.Utf8.decodeLossy_encode, ht]
  rfl

theorem target?_selfImporting {d : Import} (h : d.path = ['a', '.', 't', 'y', 'p']) :
    selfImporting.target? (some ⟨"/t"⟩) d = some ⟨"/t/a.typ"⟩ := by
  have hpath : String.ofList d.path = "a.typ" := by
    rw [h]
  have habsolute : d.isAbsolute = false := by
    rw [Import.isAbsolute, h]
    decide
  have hcandidate : Lookup.candidate selfImporting.roots (some ⟨"/t"⟩) "a.typ" = ⟨"/t/a.typ"⟩ := by
    decide
  have hcanonical : selfImporting.files.canonicalize ⟨"/t/a.typ"⟩ = .ok ⟨"/t/a.typ"⟩ := by
    rw [FileSystem.canonicalize, FileSystem.find_eq_ok_iff.2 locate_selfImporting]
    decide
  have hprotected : (⟨"/t/a.typ"⟩ : Path).isProtected = false := by decide
  have hfile : selfImporting.files.isFile ⟨"/t/a.typ"⟩ = true := by
    rw [FileSystem.isFile, status_selfImporting]
  rw [Surroundings.target?, habsolute, lookup?, Lookup.find, hpath, if_neg (by decide),
    if_neg (by decide), hcandidate]
  simp only [hcanonical, hprotected, hfile]
  rfl

theorem eq_of_imports_selfImport {path : String} {file : Path}
    (h : Imports selfImporting (some ⟨"/t"⟩) selfImport path file) : file = ⟨"/t/a.typ"⟩ := by
  obtain ⟨d, hd, -, ht⟩ := h
  have hall : (Import.directives selfImport).map Import.path = [['a', '.', 't', 'y', 'p']] := by cbv
  have hpath : d.path ∈ (Import.directives selfImport).map Import.path := List.mem_map_of_mem hd
  rw [hall, List.mem_singleton] at hpath
  rw [target?_selfImporting hpath] at ht
  exact (Option.some.inj ht).symm

theorem eq_of_reachable_selfImport {file : Path}
    (h : Reachable selfImporting selfImport (some ⟨"/t"⟩) file) : file = ⟨"/t/a.typ"⟩ := by
  induction h with
  | direct hi => exact eq_of_imports_selfImport hi
  | @through importer file text path _ ht hi ih =>
    subst ih
    obtain rfl : selfImport = text := by
      rw [sourceText?_selfImporting] at ht
      exact Option.some.inj ht
    have hparent : (⟨"/t/a.typ"⟩ : Path).parent? = some ⟨"/t"⟩ := by decide
    rw [hparent] at hi
    exact eq_of_imports_selfImport hi

/-- The file that imports itself is resolved, and both texts get its scratch name. -/
theorem resolve_redirects_selfImport :
    ∃ r, outcome (resolve selfImporting selfImport (some ⟨"/t"⟩)) = .ok r ∧
      RedirectedText selfImporting r (some ⟨"/t"⟩) selfImport r.entrypoint := by
  rcases discover_cases selfImporting selfImport (some ⟨"/t"⟩) with
    ⟨found, hf, -, -⟩ | ⟨e, file, -, hr, hn⟩
  · have h := outcome_resolve selfImporting selfImport (some ⟨"/t"⟩)
    rw [hf] at h
    refine ⟨_, h, (resolve_redirects_imports (fun file hfile => ?_) h).1⟩
    rw [eq_of_reachable_selfImport hfile]
    decide
  · rw [eq_of_reachable_selfImport hr, sourceText?_selfImporting] at hn
    cases hn

end Galley.Dependency
