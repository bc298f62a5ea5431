import Galley.Dependency.Discovery
import Galley.Proofs.FileSystem.Canonical
import Galley.Proofs.Outcome
import Galley.Proofs.Text.Utf8

/-! # What discovery finds

`Reachable` is the least set of files that an entrypoint imports, directly or through the rendered
text of others. A visit of one import either finds nothing new, adds one reachable file with its
text, or fails at a reachable file whose text cannot be rendered. The invariant `Progress` carries
this through all visits; it bounds the files found by the files there are, so the fuel suffices. -/

namespace Galley.Dependency

open Typst (Import)

/-! ## Imports and the files they reach -/

/-- The file that an import directive means, seen from a directory. -/
def Surroundings.target? (s : Surroundings) (directory : Option Path) (d : Import) :
    Option Path :=
  if d.isAbsolute then none else lookup? s.files s.roots directory (String.ofList d.path)

/-- The text of a file in which its imports are looked for: its octets decoded, with what is
ill-formed replaced, and rendered when the file is a template. Rendering may fail. -/
def Surroundings.sourceText? (s : Surroundings) (p : Path) : Option String :=
  match s.files.read p with
  | .error _ => none
  | .ok bytes =>
    let decoded := Text.Utf8.decodeLossy bytes
    if Template.isTemplateFile p then (Template.render p.fileName decoded s.bindings).toOption
    else some decoded

/-- A text, seen from a directory, imports a file under a path. -/
def Imports (s : Surroundings) (directory : Option Path) (text path : String) (file : Path) :
    Prop :=
  ∃ d ∈ Import.directives text, String.ofList d.path = path ∧ s.target? directory d = some file

/-- The least set of files that holds what the entrypoint imports and what the files in it
import. -/
inductive Reachable (s : Surroundings) (entrypoint : String) (directory : Option Path) :
    Path → Prop where
  | direct {path : String} {file : Path} :
      Imports s directory entrypoint path file → Reachable s entrypoint directory file
  | through {importer file : Path} {text path : String} :
      Reachable s entrypoint directory importer → s.sourceText? importer = some text →
      Imports s importer.parent? text path file → Reachable s entrypoint directory file

/-- The entrypoint or a reachable file imports a file under a path. -/
def ImportedAs (s : Surroundings) (entrypoint : String) (directory : Option Path) (path : String)
    (file : Path) : Prop :=
  Imports s directory entrypoint path file ∨
    ∃ importer text, Reachable s entrypoint directory importer ∧
      s.sourceText? importer = some text ∧ Imports s importer.parent? text path file

variable {s : Surroundings} {entrypoint : String} {directory : Option Path}

theorem ImportedAs.reachable {path : String} {file : Path}
    (h : ImportedAs s entrypoint directory path file) : Reachable s entrypoint directory file := by
  rcases h with h | ⟨importer, text, hr, ht, hi⟩
  · exact .direct h
  · exact .through hr ht hi

/-- An import comes to the file that its candidate leads to, unless it is empty or absolute or the file is
protected. -/
theorem lookup?_eq_some_iff {fs : FileSystem} {roots : Roots} {path : String} {p : Path} :
    lookup? fs roots directory path = some p ↔
      (path.isEmpty = false ∧ (⟨path⟩ : Path).isAbsolute = false) ∧
        fs.canonicalize (Lookup.candidate roots directory path) = .ok p ∧ p.isProtected = false ∧
        fs.isFile p = true := by
  constructor
  · intro h
    simp only [lookup?, Lookup.find] at h
    split at h
    · cases h
    · next hpath =>
      split at h
      · cases h
      · next target hc =>
        split at h
        · cases h
        · next hp =>
          split at h
          · next hf =>
            obtain rfl : target = p := Option.some.inj h
            exact ⟨by simpa using hpath, hc, by simpa using hp, hf⟩
          · cases h
  · rintro ⟨⟨hpath, hrel⟩, hc, hp, hf⟩
    simp [lookup?, Lookup.find, Lookup.target?, hpath, hrel, hc, hp, hf]

theorem exists_isFileAt_of_lookup? {fs : FileSystem} {roots : Roots} {path : String} {file : Path}
    (h : lookup? fs roots directory path = some file) :
    ∃ place content, fs.IsFileAt file place content := by
  obtain ⟨-, hc, -, hf⟩ := lookup?_eq_some_iff.1 h
  exact FileSystem.exists_isFileAt hc hf

/-- What an import means is a file at its canonical path. -/
theorem exists_isFileAt_of_target? {from? : Option Path} {d : Import} {file : Path}
    (h : s.target? from? d = some file) :
    ∃ place content, s.files.IsFileAt file place content := by
  rw [Surroundings.target?] at h
  split at h
  · cases h
  · exact exists_isFileAt_of_lookup? h

theorem Reachable.exists_isFileAt {file : Path} (h : Reachable s entrypoint directory file) :
    ∃ place content, s.files.IsFileAt file place content := by
  cases h with
  | direct h =>
    obtain ⟨d, -, -, ht⟩ := h
    exact exists_isFileAt_of_target? ht
  | through _ _ h =>
    obtain ⟨d, -, -, ht⟩ := h
    exact exists_isFileAt_of_target? ht

/-- Reachable files have one path each. -/
theorem Reachable.eq_of_same {p q : Path} (hp : Reachable s entrypoint directory p)
    (hq : Reachable s entrypoint directory q) (h : p.same q = true) : p = q := by
  obtain ⟨place, content, hp⟩ := hp.exists_isFileAt
  obtain ⟨other, content', hq⟩ := hq.exists_isFileAt
  exact hp.eq_of_same hq h

/-! ## One visit -/

/-- A content has the text of a file, and octets that are kept are read as that text. It is what
loading the octets of the file gives. -/
structure Content.IsOf (s : Surroundings) (file : Path) (content : Content) : Prop where
  text : s.sourceText? file = some content.text
  raw : ∀ raw, content.raw = some raw → Text.Utf8.decodeLossy raw = content.text
  loaded : ∃ bytes, s.files.read file = .ok bytes ∧
    outcome (Content.load s.bindings file bytes) = .ok content

theorem Content.text_ofBytes (bytes : Text.Bytes) :
    (Content.ofBytes bytes).text = Text.Utf8.decodeLossy bytes := by
  unfold Content.ofBytes
  split
  · next text h => exact (Text.Utf8.decodeLossy_of_decode? h).symm
  · rfl

theorem Content.raw_ofBytes {bytes raw : Text.Bytes} (h : (Content.ofBytes bytes).raw = some raw) :
    raw = bytes := by
  unfold Content.ofBytes at h
  split at h
  · simp at h
  · simpa using h.symm

theorem outcome_load (bytes : Text.Bytes) (file : Path) :
    outcome (Content.load s.bindings file bytes) =
      if Template.isTemplateFile file then
        (Template.render file.fileName (Text.Utf8.decodeLossy bytes) s.bindings).bind
          fun text => .ok ⟨text, none⟩
      else .ok (Content.ofBytes bytes) := by
  have hv : (Template.renderLogged file.fileName (Content.ofBytes bytes).text s.bindings).value =
      Template.render file.fileName (Text.Utf8.decodeLossy bytes) s.bindings := by
    rw [Content.text_ofBytes]
    rfl
  unfold Content.load
  rw [← hv]
  -- Reporting what was decoded lossily makes no difference.
  by_cases hr : (Content.ofBytes bytes).raw.isSome = true <;>
    by_cases ht : Template.isTemplateFile file = true
  · simp only [if_pos hr, if_pos ht, outcome_bind, outcome_report, outcome_mk, outcome_pure,
      Except.bind]
  · simp only [if_pos hr, if_neg ht, outcome_bind, outcome_report, outcome_pure, Except.bind]
  · simp only [if_neg hr, if_pos ht, outcome_bind, outcome_mk, outcome_pure]
  · simp only [if_neg hr, if_neg ht, outcome_pure]

/-- A file that was read has a content, or no text. -/
theorem load_cases {file : Path} {bytes : Text.Bytes} (h : s.files.read file = .ok bytes) :
    (∃ content, outcome (Content.load s.bindings file bytes) = .ok content ∧
      content.IsOf s file) ∨
    ∃ e, outcome (Content.load s.bindings file bytes) = .error e ∧ s.sourceText? file = none := by
  have hl := outcome_load (s := s) bytes file
  by_cases ht : Template.isTemplateFile file = true
  · rw [if_pos ht] at hl
    cases hr : Template.render file.fileName (Text.Utf8.decodeLossy bytes) s.bindings with
    | error e =>
      rw [hr] at hl
      exact .inr ⟨e, hl, by simp [Surroundings.sourceText?, h, ht, hr, Except.toOption]⟩
    | ok text =>
      rw [hr] at hl
      refine .inl ⟨_, hl, ?_, by simp, bytes, h, hl⟩
      simp [Surroundings.sourceText?, h, ht, hr, Except.toOption]
  · rw [if_neg ht] at hl
    refine .inl ⟨_, hl, ?_, ?_, bytes, h, hl⟩
    · simp [Surroundings.sourceText?, h, ht, Content.text_ofBytes]
    · intro raw hraw
      rw [Content.raw_ofBytes hraw, Content.text_ofBytes]

/-- What a visit of one import comes to. -/
inductive Visit (s : Surroundings) (from? : Option Path) (found : List Source) (d : Import) :
    Except Failure (Option Source) → Prop where
  /-- The import means no file, or one that was found. -/
  | nothing : (∀ file, s.target? from? d = some file → ∃ x ∈ found, x.path.same file = true) →
      Visit s from? found d (.ok none)
  | new {file : Path} {content : Content} : s.target? from? d = some file →
      (∀ x ∈ found, x.path.same file = false) → content.IsOf s file →
      Visit s from? found d (.ok (some ⟨file, String.ofList d.path, content⟩))
  | failed {file : Path} {e : Failure} : s.target? from? d = some file →
      s.sourceText? file = none → Visit s from? found d (.error e)

theorem visit_cases (s : Surroundings) (from? : Option Path) (found : List Source) (d : Import) :
    Visit s from? found d (outcome (visit s from? found d)) := by
  unfold visit
  by_cases ha : d.isAbsolute = true
  · rw [if_pos ha]
    exact .nothing (by simp [Surroundings.target?, ha])
  rw [if_neg ha, outcome_bind, outcome_report]
  simp only [Except.bind]
  have ht : s.target? from? d =
      (Lookup.find s.files s.roots from? (String.ofList d.path)).target? := by
    rw [Surroundings.target?, if_neg ha, lookup?]
  cases hl : (Lookup.find s.files s.roots from? (String.ofList d.path)).target? with
  | none => exact .nothing (by simp [ht, hl])
  | some file =>
    rw [hl] at ht
    obtain ⟨place, content, hf⟩ := exists_isFileAt_of_target? ht
    by_cases hs : found.any (·.path.same file) = true
    · simp only [if_pos hs, outcome_pure]
      refine .nothing fun other ho => ?_
      obtain rfl : file = other := by simpa [ht] using ho
      exact List.any_eq_true.1 hs
    · have hnew : ∀ x ∈ found, x.path.same file = false := by simpa using hs
      simp only [if_neg hs, hf.read, outcome_bind, outcome_report, outcome_pure]
      rcases load_cases hf.read with ⟨c, hc, ho⟩ | ⟨e, he, hn⟩
      · rw [hc]
        exact .new ht hnew ho
      · rw [he]
        exact .failed ht hn

/-! ## All visits -/

/-- Files found so far: each is reachable and has its own text, under the path of an import, and
none was found twice. -/
structure Progress (s : Surroundings) (entrypoint : String) (directory : Option Path)
    (found : List Source) : Prop where
  importedAs : ∀ x ∈ found, ImportedAs s entrypoint directory x.importedAs x.path
  content : ∀ x ∈ found, x.content.IsOf s x.path
  nodup : (found.map Source.path).Nodup

theorem Progress.nil : Progress s entrypoint directory [] := ⟨by simp, by simp, by simp⟩

theorem Progress.reachable {found : List Source} (h : Progress s entrypoint directory found)
    {x : Source} (hx : x ∈ found) : Reachable s entrypoint directory x.path :=
  (h.importedAs x hx).reachable

theorem Progress.append {found : List Source} {x : Source}
    (h : Progress s entrypoint directory found)
    (hi : ImportedAs s entrypoint directory x.importedAs x.path) (hc : x.content.IsOf s x.path)
    (hn : ∀ y ∈ found, y.path.same x.path = false) :
    Progress s entrypoint directory (found ++ [x]) := by
  refine ⟨?_, ?_, ?_⟩
  · intro y hy
    rcases List.mem_append.1 hy with hy | hy
    · exact h.importedAs y hy
    · rwa [List.mem_singleton.1 hy]
  · intro y hy
    rcases List.mem_append.1 hy with hy | hy
    · exact h.content y hy
    · rwa [List.mem_singleton.1 hy]
  · rw [List.map_append, List.map_singleton, List.nodup_append]
    refine ⟨h.nodup, by simp, ?_⟩
    rintro a ha b hb rfl
    obtain ⟨y, hy, he⟩ := List.mem_map.1 ha
    rw [List.mem_singleton] at hb
    have hs := hn y hy
    rw [he, hb, Path.same] at hs
    simp at hs

/-- No more files are found than there are. -/
theorem Progress.length_le {found : List Source} (h : Progress s entrypoint directory found) :
    found.length ≤ s.files.fileCount := by
  rw [← List.length_map Source.path]
  apply FileSystem.length_le_fileCount h.nodup
  intro p hp
  obtain ⟨x, hx, rfl⟩ := List.mem_map.1 hp
  exact (h.reachable hx).exists_isFileAt

/-- A file of a list of those found. -/
def Holds (found : List Source) (file : Path) : Prop := ∃ x ∈ found, x.path = file

theorem Holds.mono {found found' : List Source} {file : Path} (h : Holds found file)
    (hp : found <+: found') : Holds found' file := by
  obtain ⟨x, hx, he⟩ := h
  exact ⟨x, hp.subset hx, he⟩

/-- What visits come to that began with some files found: more files, with all that satisfy
`wanted` among them, or a failure at a reachable file that has no text. -/
inductive Search (s : Surroundings) (entrypoint : String) (directory : Option Path)
    (found : List Source) (wanted : List Source → Path → Prop) :
    Except Failure (List Source) → Prop where
  | complete {found' : List Source} : Progress s entrypoint directory found' →
      found <+: found' → (∀ file, wanted found' file → Holds found' file) →
      Search s entrypoint directory found wanted (.ok found')
  | failed {file : Path} {e : Failure} : Reachable s entrypoint directory file →
      s.sourceText? file = none → Search s entrypoint directory found wanted (.error e)

/-- Visits that go on from more files found. -/
theorem Search.after {found found₁ : List Source} {wanted wanted₁ : List Source → Path → Prop}
    {result : Except Failure (List Source)} (hp : found <+: found₁)
    (h : Search s entrypoint directory found₁ wanted₁ result)
    (hw : ∀ found', found₁ <+: found' → (∀ file, wanted₁ found' file → Holds found' file) →
      ∀ file, wanted found' file → Holds found' file) :
    Search s entrypoint directory found wanted result := by
  cases h with
  | complete hprogress hp₁ hall =>
    exact .complete hprogress (hp.trans hp₁) (hw _ hp₁ hall)
  | failed hr hn => exact .failed hr hn

/-- The imports of one text are visited. -/
theorem search_visitAll {from? : Option Path} {found : List Source} {ds : List Import}
    (h : Progress s entrypoint directory found)
    (hi : ∀ d ∈ ds, ∀ file, s.target? from? d = some file →
      ImportedAs s entrypoint directory (String.ofList d.path) file) :
    Search s entrypoint directory found (fun _ file => ∃ d ∈ ds, s.target? from? d = some file)
      (outcome (visitAll s from? found ds)) := by
  induction ds generalizing found with
  | nil => exact .complete h List.prefix_rfl (by simp)
  | cons d ds ih =>
    have hrest : ∀ d ∈ ds, ∀ file, s.target? from? d = some file →
        ImportedAs s entrypoint directory (String.ofList d.path) file :=
      fun d hd => hi d (List.mem_cons_of_mem _ hd)
    have hfirst := hi d (by simp)
    have hvisit := visit_cases s from? found d
    rw [visitAll, outcome_bind]
    generalize outcome (visit s from? found d) = result at hvisit
    cases hvisit with
    | nothing hold =>
      have hnext := ih h hrest
      simp only [Except.bind, Option.toList_none, List.append_nil]
      refine .after List.prefix_rfl hnext fun found' hp hall file hw => ?_
      obtain ⟨d', hd', ht⟩ := hw
      rcases List.mem_cons.1 hd' with rfl | hd'
      · obtain ⟨x, hx, hs⟩ := hold file ht
        have he := (h.reachable hx).eq_of_same (hfirst file ht).reachable hs
        exact Holds.mono ⟨x, hx, he⟩ hp
      · exact hall file ⟨d', hd', ht⟩
    | @new file content ht hnew hc =>
      have hmore : Progress s entrypoint directory
          (found ++ [⟨file, String.ofList d.path, content⟩]) :=
        h.append (hfirst file ht) hc hnew
      have hnext := ih hmore hrest
      simp only [Except.bind, Option.toList_some]
      refine .after (List.prefix_append _ _) hnext fun found' hp hall other hw => ?_
      obtain ⟨d', hd', ht'⟩ := hw
      rcases List.mem_cons.1 hd' with rfl | hd'
      · obtain rfl : file = other := by simpa [ht] using ht'
        exact Holds.mono ⟨_, List.mem_append_right _ (List.mem_singleton_self _), rfl⟩ hp
      · exact hall other ⟨d', hd', ht'⟩
    | failed ht hn => exact .failed (hfirst _ ht).reachable hn

/-- A file that a file found imports, as far as the first `visited` of them go. -/
def WantedBy (s : Surroundings) (visited : Nat) (found : List Source) (file : Path) : Prop :=
  ∃ x ∈ found.take visited, ∃ path, Imports s x.path.parent? x.content.text path file

/-- The files found are visited one after another, with the files that those before import found
already. No more visits are needed than there are files. -/
theorem search_discoverFrom (fuel visited : Nat) {found : List Source}
    (h : Progress s entrypoint directory found)
    (hold : ∀ file, WantedBy s visited found file → Holds found file)
    (hfuel : s.files.fileCount < fuel + visited) :
    Search s entrypoint directory found
      (fun found' file => ∃ x ∈ found', ∃ path, Imports s x.path.parent? x.content.text path file)
      (outcome (discoverFrom s fuel visited found)) := by
  induction fuel generalizing visited found with
  | zero =>
    have hl := h.length_le
    refine .complete h List.prefix_rfl fun file hw => hold file ?_
    rwa [WantedBy, List.take_of_length_le (by omega)]
  | succ fuel ih =>
    rw [discoverFrom]
    cases hx : found[visited]? with
    | none =>
      have hl := List.getElem?_eq_none_iff.1 hx
      refine .complete h List.prefix_rfl fun file hw => hold file ?_
      rwa [WantedBy, List.take_of_length_le hl]
    | some x =>
      have hmem := List.mem_of_getElem? hx
      have hvisit : Search s entrypoint directory found
          (fun _ file => ∃ d ∈ Import.directives x.content.text,
            s.target? x.path.parent? d = some file)
          (outcome (visitAll s x.path.parent? found (Import.directives x.content.text))) :=
        search_visitAll h fun d hd file ht =>
          .inr ⟨x.path, x.content.text, h.reachable hmem, (h.content x hmem).text,
            d, hd, rfl, ht⟩
      simp only [outcome_bind]
      generalize outcome (visitAll s x.path.parent? found (Import.directives x.content.text)) =
        result at hvisit
      cases hvisit with
      | failed hr hn => exact .failed hr hn
      | @complete found₁ h₁ hp hall =>
        simp only [Except.bind]
        refine .after hp (ih (visited + 1) h₁ (fun file hw => ?_) (by omega)) fun _ _ hall => hall
        -- The first `visited` files are those of `found`, and the next one is `x`.
        have htake : found₁.take (visited + 1) = found.take visited ++ [x] := by
          obtain ⟨more, rfl⟩ := hp
          have hlt : visited < found.length := (List.getElem?_eq_some_iff.1 hx).1
          rw [List.take_append_of_le_length hlt, List.take_add_one, hx, Option.toList_some]
        obtain ⟨y, hy, path, hi⟩ := hw
        rw [htake] at hy
        rcases List.mem_append.1 hy with hy | hy
        · exact (hold file ⟨y, hy, path, hi⟩).mono hp
        · rw [List.mem_singleton] at hy
          subst hy
          obtain ⟨d, hd, -, ht⟩ := hi
          exact hall file ⟨d, hd, ht⟩

/-- Discovery finds files that are closed under imports, or fails at a reachable file. -/
theorem search_discover (s : Surroundings) (entrypoint : String) (directory : Option Path) :
    Search s entrypoint directory []
      (fun found file => (∃ path, Imports s directory entrypoint path file) ∨
        ∃ x ∈ found, ∃ path, Imports s x.path.parent? x.content.text path file)
      (outcome (discover s entrypoint directory)) := by
  have hfirst : Search s entrypoint directory []
      (fun _ file => ∃ d ∈ Import.directives entrypoint, s.target? directory d = some file)
      (outcome (visitAll s directory [] (Import.directives entrypoint))) :=
    search_visitAll .nil fun d hd file ht => .inl ⟨d, hd, rfl, ht⟩
  rw [discover, outcome_bind]
  generalize outcome (visitAll s directory [] (Import.directives entrypoint)) = result at hfirst
  cases hfirst with
  | failed hr hn => exact .failed hr hn
  | @complete found h hp hall =>
    have hrest := search_discoverFrom (s.files.fileCount + 1) 0 h (by simp [WantedBy]) (by omega)
    refine .after hp hrest fun found' hp' hclosed file hw => ?_
    rcases hw with ⟨path, d, hd, -, ht⟩ | hw
    · exact (hall file ⟨d, hd, ht⟩).mono hp'
    · exact hclosed file hw

/-- Discovery succeeds with all reachable files and no others, or fails because the text of a
reachable file cannot be rendered. -/
theorem discover_cases (s : Surroundings) (entrypoint : String) (directory : Option Path) :
    (∃ found, outcome (discover s entrypoint directory) = .ok found ∧
      Progress s entrypoint directory found ∧
      ∀ file, Reachable s entrypoint directory file → Holds found file) ∨
    ∃ e file, outcome (discover s entrypoint directory) = .error e ∧
      Reachable s entrypoint directory file ∧ s.sourceText? file = none := by
  have hsearch := search_discover s entrypoint directory
  generalize outcome (discover s entrypoint directory) = result at hsearch
  cases hsearch with
  | failed hr hn => exact .inr ⟨_, _, rfl, hr, hn⟩
  | @complete found h _ hall =>
    refine .inl ⟨found, rfl, h, fun file hfile => ?_⟩
    induction hfile with
    | direct hi => exact hall _ (.inl ⟨_, hi⟩)
    | @through importer file text path _ ht hi ih =>
      obtain ⟨x, hx, rfl⟩ := ih
      obtain rfl : x.content.text = text := by
        simpa [(h.content x hx).text] using ht
      exact hall file (.inr ⟨x, hx, path, hi⟩)

end Galley.Dependency
