import Galley.Proofs.Dependency.Closure
import Galley.Proofs.FileSystem.Unprotected

/-! # Protected directories are not looked into

No import means a file in a protected directory, and what such files hold changes nothing: neither what
resolving comes to nor what is reported on the way. -/

namespace Galley.Dependency

open Typst (Import)

variable {s s' : Surroundings} {entrypoint : String} {directory : Option Path}

/-! ## No protected file is found -/

theorem unprotected_of_find {fs : FileSystem} {roots : Roots} {path : String} {target : Path}
    (h : Lookup.find fs roots directory path = .file target) :
    target.isProtected = false ∧ ∃ p, fs.canonicalize p = .ok target := by
  have hlookup : lookup? fs roots directory path = some target := by
    rw [lookup?, h]
    rfl
  obtain ⟨-, hc, hp, -⟩ := lookup?_eq_some_iff.1 hlookup
  exact ⟨hp, _, hc⟩

theorem find_of_target? {from? : Option Path} {d : Import} {file : Path}
    (h : s.target? from? d = some file) :
    Lookup.find s.files s.roots from? (String.ofList d.path) = .file file := by
  rw [Surroundings.target?, lookup?] at h
  split at h
  · cases h
  · cases hl : Lookup.find s.files s.roots from? (String.ofList d.path) <;>
      simp_all [Lookup.target?]

/-- A file that is reached stands at a canonical path, and is not protected. -/
theorem Reachable.unprotected {file : Path} (h : Reachable s entrypoint directory file) :
    file.isProtected = false ∧ ∃ p, s.files.canonicalize p = .ok file := by
  cases h with
  | direct h =>
    obtain ⟨d, -, -, ht⟩ := h
    exact unprotected_of_find (find_of_target? ht)
  | through _ _ h =>
    obtain ⟨d, -, -, ht⟩ := h
    exact unprotected_of_find (find_of_target? ht)

/-- No entry of a resolution is a file in a protected directory. -/
theorem unprotected_of_resolve {r : Resolution}
    (h : outcome (resolve s entrypoint directory) = .ok r) {e : Entry} (he : e ∈ r.graph.entries) :
    e.source.isProtected = false := by
  rw [outcome_resolve] at h
  rcases discover_cases s entrypoint directory with ⟨found, hd, hp, -⟩ | ⟨e, file, hd, -, -⟩
  · rw [hd] at h
    obtain rfl : Resolution.ofSources s found entrypoint directory = r := Except.ok.inj h
    obtain ⟨x, hx, rfl⟩ := hp.mem_entries.1 he
    exact (hp.reachable hx).unprotected.1
  · rw [hd] at h
    cases h

/-! ## Visits -/

theorem Progress.of_visitAll {from? : Option Path} {found found' : List Source} {ds : List Import}
    (h : Progress s entrypoint directory found)
    (hi : ∀ d ∈ ds, ∀ file, s.target? from? d = some file →
      ImportedAs s entrypoint directory (String.ofList d.path) file)
    (hv : outcome (visitAll s from? found ds) = .ok found') :
    Progress s entrypoint directory found' := by
  have hsearch := search_visitAll h hi
  rw [hv] at hsearch
  cases hsearch
  assumption

/-- Visiting the imports of a file found goes on with what is known of those found. -/
theorem Progress.visited {found found' : List Source} {x : Source}
    (h : Progress s entrypoint directory found) (hx : x ∈ found)
    (hv : outcome (visitAll s x.path.parent? found (Import.directives x.content.text)) = .ok found') :
    Progress s entrypoint directory found' :=
  h.of_visitAll (fun d hd _ ht =>
    .inr ⟨x.path, x.content.text, h.reachable hx, (h.content x hx).text, d, hd, rfl, ht⟩) hv

/-! ## What protected files hold -/

/-- Surroundings that differ in nothing but the contents of files in protected directories. -/
structure SameUnprotected (s s' : Surroundings) : Prop where
  files : s.files.SameUnprotected s'.files
  roots : s'.roots = s.roots
  bindings : s'.bindings = s.bindings

namespace SameUnprotected

theorem find_eq (h : SameUnprotected s s') (from? : Option Path) (path : String) :
    Lookup.find s'.files s'.roots from? path = Lookup.find s.files s.roots from? path := by
  simp only [Lookup.find, h.roots, h.files.canonicalize_eq, h.files.isFile_eq]

/-- A file that an import means is read alike. -/
theorem read_eq (h : SameUnprotected s s') {from? : Option Path} {path : String} {target : Path}
    (hf : Lookup.find s.files s.roots from? path = .file target) :
    s'.files.read target = s.files.read target := by
  obtain ⟨hp, p, hc⟩ := unprotected_of_find hf
  exact h.files.read_eq hc hp

theorem visit_eq (h : SameUnprotected s s') (from? : Option Path) (found : List Source) (d : Import) :
    visit s' from? found d = visit s from? found d := by
  unfold visit
  simp only [h.find_eq, h.bindings]
  cases hl : Lookup.find s.files s.roots from? (String.ofList d.path) with
  | file target => simp only [Lookup.target?, h.read_eq hl]
  | refused | dangling | guarded | irregular => rfl

theorem visitAll_eq (h : SameUnprotected s s') (from? : Option Path) (found : List Source)
    (ds : List Import) : visitAll s' from? found ds = visitAll s from? found ds := by
  induction ds generalizing found with
  | nil => rfl
  | cons d ds ih => simp only [visitAll, h.visit_eq, ih]

/-- There are as many files in both as are found in one. -/
theorem length_le (h : SameUnprotected s s') {found : List Source}
    (hp : Progress s entrypoint directory found) : found.length ≤ s'.files.fileCount := by
  rw [← List.length_map Source.path]
  refine FileSystem.length_le_fileCount hp.nodup fun p hm => ?_
  obtain ⟨x, hx, rfl⟩ := List.mem_map.1 hm
  obtain ⟨place, content, hfile⟩ := (hp.reachable hx).exists_isFileAt
  obtain ⟨hunprotected, q, hc⟩ := (hp.reachable hx).unprotected
  exact ⟨place, content, h.files.isFileAt hunprotected hfile hc⟩

/-- The files may be counted differently; neither count runs out before all that was found is visited. -/
theorem discoverFrom_eq (h : SameUnprotected s s') {fuel fuel' visited : Nat} {found : List Source}
    (hp : Progress s entrypoint directory found) (hfuel : s.files.fileCount < fuel + visited)
    (hfuel' : s'.files.fileCount < fuel' + visited) :
    discoverFrom s' fuel' visited found = discoverFrom s fuel visited found := by
  have hlength := hp.length_le
  have hlength' := h.length_le hp
  induction fuel generalizing fuel' visited found with
  | zero =>
    have hnone : found[visited]? = none := List.getElem?_eq_none (by omega)
    cases fuel' with
    | zero => rfl
    | succ fuel' => simp only [discoverFrom, hnone]
  | succ fuel ih =>
    cases hx : found[visited]? with
    | none => cases fuel' <;> simp only [discoverFrom, hx]
    | some x =>
      have hlt := (List.getElem?_eq_some_iff.1 hx).1
      obtain ⟨fuel', rfl⟩ : ∃ k, fuel' = k + 1 := ⟨fuel' - 1, by omega⟩
      simp only [discoverFrom, hx, h.visitAll_eq]
      refine bind_congr_of_outcome fun found₁ hvisit => ?_
      have hp₁ := hp.visited (List.mem_of_getElem? hx) hvisit
      exact ih hp₁ (by omega) (by omega) hp₁.length_le (h.length_le hp₁)

theorem discover_eq (h : SameUnprotected s s') (entrypoint : String) (directory : Option Path) :
    discover s' entrypoint directory = discover s entrypoint directory := by
  simp only [discover, h.visitAll_eq]
  refine bind_congr_of_outcome fun found hvisit => ?_
  have hp : Progress s entrypoint directory found :=
    Progress.nil.of_visitAll (fun d hd file ht => .inl ⟨d, hd, rfl, ht⟩) hvisit
  exact h.discoverFrom_eq hp (by omega) (by omega)

/-! ## Redirection -/

theorem replacement?_eq (h : SameUnprotected s s') (g : Graph) (from? : Option Path) :
    replacement? s' g from? = replacement? s g from? := by
  funext d
  simp only [replacement?, lookup?, h.find_eq]

theorem replacementEvents_eq (h : SameUnprotected s s') (g : Graph) (from? : Option Path) :
    replacementEvents s' g from? = replacementEvents s g from? := by
  funext d
  simp only [replacementEvents, h.find_eq, h.replacement?_eq]

theorem redirect_eq (h : SameUnprotected s s') (g : Graph) (from? : Option Path) (text : String) :
    redirect s' g from? text = redirect s g from? text := by
  rw [redirect, h.replacement?_eq, redirect]

theorem redirectEvents_eq (h : SameUnprotected s s') (g : Graph) (from? : Option Path)
    (text : String) : redirectEvents s' g from? text = redirectEvents s g from? text := by
  rw [redirectEvents, h.replacementEvents_eq, redirectEvents]

theorem resolvedFile_eq (h : SameUnprotected s s') (g : Graph) (entry : Entry) :
    resolvedFile s' g entry = resolvedFile s g entry := by
  funext source
  simp only [resolvedFile, h.redirect_eq]

theorem resolvedFileEvents_eq (h : SameUnprotected s s') (g : Graph) (entry : Entry) :
    resolvedFileEvents s' g entry = resolvedFileEvents s g entry := by
  funext source
  simp only [resolvedFileEvents, h.redirect_eq, h.redirectEvents_eq]

theorem ofSources_eq (h : SameUnprotected s s') (found : List Source) (entrypoint : String)
    (directory : Option Path) :
    Resolution.ofSources s' found entrypoint directory =
      Resolution.ofSources s found entrypoint directory := by
  simp only [Resolution.ofSources, h.resolvedFile_eq, h.redirect_eq]

theorem events_eq (h : SameUnprotected s s') (found : List Source) (entrypoint : String)
    (directory : Option Path) :
    Resolution.events s' found entrypoint directory =
      Resolution.events s found entrypoint directory := by
  simp only [Resolution.events, h.resolvedFileEvents_eq, h.redirectEvents_eq]

/-- Resolving comes to the same, and reports the same. -/
theorem resolve_eq (h : SameUnprotected s s') (entrypoint : String) (directory : Option Path) :
    resolve s' entrypoint directory = resolve s entrypoint directory := by
  simp only [resolve, h.discover_eq, h.events_eq, h.ofSources_eq]

end SameUnprotected

end Galley.Dependency
