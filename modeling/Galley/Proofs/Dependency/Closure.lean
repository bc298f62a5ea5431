import Galley.Dependency.Resolution
import Galley.Proofs.Dependency.Discovery
import Mathlib.Data.List.Nodup

/-! # Resolutions are import closures

The graph of a resolution holds the reachable files, one entry each in the order of their paths, and
the resolution holds one file for each entry. It fails only where a reachable file has no text. -/

namespace Galley.Dependency

variable {s : Surroundings} {entrypoint : String} {directory : Option Path}

/-! ## The graph of files found -/

theorem mem_insertInto_iff {e x : Entry} {entries : List Entry}
    (h : ∀ y ∈ entries, e.source.compare y.source ≠ .eq) :
    x ∈ insertInto e entries ↔ x = e ∨ x ∈ entries := by
  induction entries with
  | nil => simp [insertInto]
  | cons y ys ih =>
    have hys := ih fun z hz => h z (List.mem_cons_of_mem _ hz)
    simp only [insertInto]
    split
    · simp
    · next heq => exact absurd heq (h y (by simp))
    · rw [List.mem_cons, hys, List.mem_cons]
      exact or_left_comm

/-- Putting files of different paths into a graph gives each of them its entry. -/
theorem mem_foldl_insert {found : List Source} {g : Graph} {e : Entry}
    (hg : ∀ x ∈ found, ∀ y ∈ g.entries, x.path.compare y.source ≠ .eq)
    (hp : found.Pairwise fun x y => x.path.compare y.path ≠ .eq) :
    e ∈ (found.foldl (fun g source => g.insert source.path source.importedAs) g).entries ↔
      e ∈ g.entries ∨ ∃ x ∈ found, e = .of x.path x.importedAs := by
  induction found generalizing g with
  | nil => simp
  | cons x found ih =>
    obtain ⟨hx, hrest⟩ := List.pairwise_cons.1 hp
    have hinsert (z : Entry) : z ∈ (g.insert x.path x.importedAs).entries ↔
        z = .of x.path x.importedAs ∨ z ∈ g.entries :=
      mem_insertInto_iff (hg x (by simp))
    have hnext : ∀ y ∈ found, ∀ z ∈ (g.insert x.path x.importedAs).entries,
        y.path.compare z.source ≠ .eq := by
      intro y hy z hz
      rcases (hinsert z).1 hz with rfl | hz
      · intro he
        exact hx y hy (Std.OrientedCmp.eq_symm he)
      · exact hg y (List.mem_cons_of_mem _ hy) z hz
    rw [List.foldl_cons, ih hnext hrest, hinsert e]
    simp only [List.mem_cons, exists_eq_or_imp]
    exact ⟨by rintro ((h | h) | h) <;> simp [h], by rintro (h | h | h) <;> simp [h]⟩

theorem Progress.pairwise {found : List Source} (h : Progress s entrypoint directory found) :
    found.Pairwise fun x y => x.path.compare y.path ≠ .eq := by
  have hne : found.Pairwise fun x y => x.path ≠ y.path := List.pairwise_map.1 h.nodup
  refine hne.imp_of_mem fun {x y} hx hy hxy he => hxy ?_
  apply (h.reachable hx).eq_of_same (h.reachable hy)
  exact Path.same_iff.2 (Path.compare_eq_iff.1 he)

/-- The entries of the graph are those of the files found. -/
theorem Progress.mem_entries {found : List Source} (h : Progress s entrypoint directory found)
    {e : Entry} : e ∈ (Graph.ofSources found).entries ↔
      ∃ x ∈ found, e = .of x.path x.importedAs := by
  rw [Graph.ofSources, mem_foldl_insert (by simp [Graph.empty]) h.pairwise]
  simp [Graph.empty]

/-- A file that was found is looked up by its path. -/
theorem Progress.find?_path {found : List Source} (h : Progress s entrypoint directory found)
    {x : Source} (hx : x ∈ found) : found.find? (·.path.same x.path) = some x := by
  cases hf : found.find? (·.path.same x.path) with
  | none =>
    have := List.find?_eq_none.1 hf x hx
    simp [Path.same] at this
  | some y =>
    have hy : y ∈ found := List.mem_of_find?_eq_some hf
    have hs : y.path.same x.path = true := by simpa using List.find?_some hf
    have hp := (h.reachable hy).eq_of_same (h.reachable hx) hs
    rw [List.inj_on_of_nodup_map h.nodup hy hx hp]

/-- Each entry has its file. -/
theorem Progress.exists_source {found : List Source} (h : Progress s entrypoint directory found)
    {e : Entry} (he : e ∈ (Graph.ofSources found).entries) :
    ∃ x ∈ found, Source.of? found e = some x ∧ e = .of x.path x.importedAs := by
  obtain ⟨x, hx, rfl⟩ := h.mem_entries.1 he
  exact ⟨x, hx, h.find?_path hx, rfl⟩

/-! ## The resolution -/

/-- What resolving comes to. -/
theorem outcome_resolve (s : Surroundings) (entrypoint : String) (directory : Option Path) :
    outcome (resolve s entrypoint directory) =
      (outcome (discover s entrypoint directory)).bind
        fun found => .ok (.ofSources s found entrypoint directory) := by
  rw [resolve, outcome_bind]
  congr 1

/-- The files of a resolution are made of the files found, one for each entry. -/
theorem Progress.files_eq {found : List Source} (h : Progress s entrypoint directory found) :
    (Resolution.ofSources s found entrypoint directory).files.map ResolvedFile.entry =
      (Graph.ofSources found).entries := by
  have hall : ∀ e ∈ (Graph.ofSources found).entries,
      (Source.of? found e).map (resolvedFile s (Graph.ofSources found) e) ≠ none := by
    intro e he
    obtain ⟨x, -, hx, -⟩ := h.exists_source he
    simp [hx]
  simp only [Resolution.ofSources]
  generalize (Graph.ofSources found).entries = entries at hall
  induction entries with
  | nil => rfl
  | cons e entries ih =>
    have hrest := ih fun e' he' => hall e' (List.mem_cons_of_mem _ he')
    cases hx : Source.of? found e with
    | none => exact absurd (by simp [hx]) (hall e (by simp))
    | some x => simp [hx, hrest, resolvedFile]

/-- The entries of a graph have a file each. -/
theorem Graph.nodup_source (g : Graph) : (g.entries.map Entry.source).Nodup := by
  have hsorted : g.entries.Pairwise Entry.Before := g.sorted
  refine List.pairwise_map.2 (hsorted.imp fun {a b} hab he => ?_)
  have hself : a.source.compare b.source = .eq := by rw [he]; exact Std.ReflCmp.compare_self
  rw [Entry.Before, hself] at hab
  cases hab

/-- The resolution of the files found, when those are the reachable ones. -/
theorem Progress.closure {found : List Source} (h : Progress s entrypoint directory found)
    (hall : ∀ file, Reachable s entrypoint directory file → Holds found file) :
    let r := Resolution.ofSources s found entrypoint directory
    (∀ file, Reachable s entrypoint directory file ↔ ∃ e ∈ r.graph.entries, e.source = file) ∧
    (r.graph.entries.map Entry.source).Nodup ∧
    r.files.map ResolvedFile.entry = r.graph.entries ∧
    (r.files.Pairwise fun a b => a.entry.source.compare b.entry.source = .lt) ∧
    ∀ e ∈ r.graph.entries, ImportedAs s entrypoint directory e.importedAs e.source := by
  intro r
  have hsorted : r.graph.entries.Pairwise Entry.Before := r.graph.sorted
  refine ⟨fun file => ⟨fun hfile => ?_, ?_⟩, r.graph.nodup_source, h.files_eq, ?_, ?_⟩
  · obtain ⟨x, hx, rfl⟩ := hall file hfile
    exact ⟨_, h.mem_entries.2 ⟨x, hx, rfl⟩, rfl⟩
  · rintro ⟨e, he, rfl⟩
    obtain ⟨x, hx, rfl⟩ := h.mem_entries.1 he
    exact h.reachable hx
  · have hentries : (r.files.map ResolvedFile.entry).Pairwise Entry.Before := by
      rw [h.files_eq]
      exact hsorted
    exact List.pairwise_map.1 hentries
  · intro e he
    obtain ⟨x, hx, rfl⟩ := h.mem_entries.1 he
    exact h.importedAs x hx

/-- A resolution, whenever there is one, is made of all reachable files, and there is one exactly
when all of them have a text. -/
theorem resolve_is_import_closure (s : Surroundings) (entrypoint : String)
    (directory : Option Path) :
    ((∃ r, outcome (resolve s entrypoint directory) = .ok r) ↔
      ∀ file, Reachable s entrypoint directory file → ∃ text, s.sourceText? file = some text) ∧
    ∀ r, outcome (resolve s entrypoint directory) = .ok r →
      (∀ file, Reachable s entrypoint directory file ↔
        ∃ e ∈ r.graph.entries, e.source = file) ∧
      (r.graph.entries.map Entry.source).Nodup ∧
      r.files.map ResolvedFile.entry = r.graph.entries ∧
      (r.files.Pairwise fun a b => a.entry.source.compare b.entry.source = .lt) ∧
      ∀ e ∈ r.graph.entries, ImportedAs s entrypoint directory e.importedAs e.source := by
  rw [outcome_resolve]
  rcases discover_cases s entrypoint directory with ⟨found, hf, h, hall⟩ | ⟨e, file, hf, hr, hn⟩
  · rw [hf]
    refine ⟨⟨fun _ file hfile => ?_, fun _ => ⟨_, rfl⟩⟩, ?_⟩
    · obtain ⟨x, hx, rfl⟩ := hall file hfile
      exact ⟨_, (h.content x hx).text⟩
    · rintro r hr
      obtain rfl : Resolution.ofSources s found entrypoint directory = r := Except.ok.inj hr
      exact h.closure hall
  · rw [hf]
    refine ⟨⟨?_, fun htext => ?_⟩, ?_⟩
    · rintro ⟨r, hr⟩
      cases hr
    · obtain ⟨text, ht⟩ := htext file hr
      rw [hn] at ht
      cases ht
    · intro r hr
      cases hr

end Galley.Dependency
