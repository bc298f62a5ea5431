import Galley.Proofs.Workspace.CopyName

/-! # What becomes of copies

Files are copied into a debug directory, whatever path leads there. What happens to the files of a machine is
described by what was copied on the way: under the name of each copy stands what was copied last under it, or
what stood there before. -/

namespace Galley.Workspace

open FileSystem (HasRoom)

/-- What a workspace with a debug directory relies on. -/
structure Ground where
  workspace : Workspace
  /-- Where the scratch directory is. -/
  scratch : Location
  debug : Path
  /-- Where the debug directory is. -/
  copies : Location
  /-- What has to stay: the two directories, and the directories and links that lead to them. -/
  ways : FileSystem
  isTree : ways.IsTree
  directory : workspace.directory = .ofLocation scratch
  scratchAt : ways.IsDirectoryAt scratch
  debugDirectory : workspace.debugDirectory = some debug
  leads : ways.Leads debug copies
  copiesAt : ways.node? copies = some .directory

namespace Ground

variable {g : Ground} {fs fs' fs'' : FileSystem} {place : Location} {p : Path} {kept kept' : List Kept}
  {k : Kept}

/-- Files among which a workspace can work: what has to stay is there, and under the names of copies are no
directories and no links. -/
structure Stands (g : Ground) (fs : FileSystem) : Prop where
  isTree : fs.IsTree
  ways : g.ways.KeepsWays fs
  free : ∀ name, NamesCopy name → fs.node? (g.copies ++ [name]) = none ∨
    ∃ content, fs.node? (g.copies ++ [name]) = some (.file content)

theorem Stands.copiesAt (h : g.Stands fs) : fs.node? g.copies = some .directory :=
  h.ways.directory g.copiesAt

theorem Stands.leads (h : g.Stands fs) : fs.Leads g.debug g.copies := h.ways.leads g.leads g.copiesAt

theorem Stands.scratchAt (h : g.Stands fs) : fs.IsDirectoryAt g.scratch :=
  g.scratchAt.of_directories fun _ hd => h.ways.directory hd

/-- Files came and went, and some were copied: no link came, and what has to stay did. -/
structure Evolves (g : Ground) (kept : List Kept) (fs fs' : FileSystem) : Prop where
  stands : g.Stands fs'
  links : ∀ {place target}, fs'.node? place = some (.link target) → fs.node? place = some (.link target)
  copied : ∀ name, NamesCopy name → fs'.node? (g.copies ++ [name]) =
    ((copied? g.debug kept name).map .file).or (fs.node? (g.copies ++ [name]))

theorem Evolves.refl (h : g.Stands fs) : g.Evolves [] fs fs :=
  ⟨h, id, fun name _ => by simp [copied?_nil]⟩

theorem Evolves.trans (h : g.Evolves kept fs fs') (h' : g.Evolves kept' fs' fs'') :
    g.Evolves (kept ++ kept') fs fs'' := by
  refine ⟨h'.stands, fun hl => h.links (h'.links hl), fun name hn => ?_⟩
  rw [h'.copied name hn, h.copied name hn, copied?_append]
  cases copied? g.debug kept' name <;> simp

/-- A location under no name of a copy. -/
def Beside (g : Ground) (place : Location) : Prop := ∀ name, NamesCopy name → place ≠ g.copies ++ [name]

/-- What changes neither ways nor copies, and brings no links. -/
theorem evolves_of_beside (h : g.Stands fs) (ht : fs'.IsTree) (hw : g.ways.KeepsWays fs')
    (hl : ∀ {place target}, fs'.node? place = some (.link target) → fs.node? place = some (.link target))
    (hc : ∀ name, NamesCopy name → fs'.node? (g.copies ++ [name]) = fs.node? (g.copies ++ [name])) :
    g.Evolves [] fs fs' := by
  refine ⟨⟨ht, hw, fun name hn => ?_⟩, hl, fun name hn => ?_⟩
  · rw [hc name hn]
    exact h.free name hn
  · simp [copied?_nil, hc name hn]

/-- Something is put beside the copies. -/
theorem evolves_set {node : Node} (h : g.Stands fs) (hb : g.Beside place) (hne : place ≠ [])
    (hnode : ∀ target, node ≠ .link target) (ht : (fs.set place node).IsTree)
    (hw : fs.KeepsWays (fs.set place node)) : g.Evolves [] fs (fs.set place node) := by
  refine evolves_of_beside h ht (h.ways.trans hw) (fun hl => FileSystem.link_of_set hne hnode hl) fun name hn => ?_
  rw [FileSystem.node?_set _ _ _ _ hne, if_neg (hb name hn).symm]

theorem evolves_putsDirectory (h : g.Stands fs) (hb : g.Beside place) (hp : fs.PutsDirectory place fs') :
    g.Evolves [] fs fs' := by
  have ht := hp.isTree h.isTree
  have hw := hp.kept.keepsWays
  rw [hp.after] at ht hw ⊢
  exact evolves_set h hb hp.isPlace.ne_nil (by simp) ht hw

theorem evolves_putsFile {content : Text.Bytes} (h : g.Stands fs) (hb : g.Beside place)
    (hp : fs.PutsFile place content fs') : g.Evolves [] fs fs' := by
  have ht := hp.isTree h.isTree
  rw [hp.after] at ht ⊢
  exact evolves_set h hb hp.isPlace.ne_nil (by simp) ht
    (FileSystem.keepsWays_set_file hp.isPlace.ne_nil hp.before)

/-- What is removed is not what has to stay, and contains no copies. -/
theorem evolves_remove (h : g.Stands fs)
    (hw : ∀ other node, place <+: other → g.ways.node? other = some node → ∃ content, node = .file content)
    (hb : g.Beside place) : g.Evolves [] fs (fs.remove place) := by
  have houtside : ∀ {other node}, g.ways.node? other = some node → (∀ content, node ≠ .file content) →
      ¬place <+: other := fun hnode hnot hpre => by
    obtain ⟨content, he⟩ := hw _ _ hpre hnode
    exact hnot content he
  have hkept : ∀ {other}, ¬place <+: other → (fs.remove place).node? other = fs.node? other := fun ho => by
    rw [FileSystem.node?_remove, if_pos (.inr ho)]
  refine evolves_of_beside h h.isTree.remove ⟨?_, fun hd => ?_, fun hl => ?_⟩ (fun hl => ?_) fun name hn => ?_
  · exact h.ways.current
  · rw [hkept (houtside hd (by simp)), h.ways.directory hd]
  · rw [hkept (houtside hl (by simp)), h.ways.link hl]
  · rw [FileSystem.node?_remove] at hl
    split at hl
    · exact hl
    · cases hl
  · refine hkept fun hpre => ?_
    rcases List.prefix_concat_iff.1 hpre with he | hpre
    · exact hb name hn he
    · exact houtside g.copiesAt (by simp) hpre

/-- A file is copied when there is room for its name. -/
theorem evolves_copy (h : g.Stands fs) (hk : NamesCopy k.name) (hroom : HasRoom g.debug k.name) :
    g.Evolves [k] fs (fs.set (g.copies ++ [k.name]) (.file k.content)) := by
  have hne : g.copies ++ [k.name] ≠ [] := by simp
  have hnode := fun other => FileSystem.node?_set fs (g.copies ++ [k.name]) other (.file k.content) hne
  have hnot : fs.node? (g.copies ++ [k.name]) ≠ some .directory := fun hd => by
    rcases h.free _ hk with hn | ⟨content, hn⟩ <;> simp [hn] at hd
  refine ⟨⟨h.isTree.set h.copiesAt (.inr hnot), ?_, fun name hn => ?_⟩,
    fun hl => FileSystem.link_of_set hne (by simp) hl, fun name hn => ?_⟩
  · exact h.ways.trans (FileSystem.keepsWays_set_file hne (h.free _ hk))
  · rw [hnode]
    split
    · exact .inr ⟨_, rfl⟩
    · exact h.free name hn
  · rw [hnode, copied?_singleton]
    by_cases he : k.name = name
    · subst he
      simp [hroom]
    · simp [he, Ne.symm he]

/-- Without room for its name, a file is kept nowhere. -/
theorem evolves_uncopied (h : g.Stands fs) (hroom : ¬HasRoom g.debug k.name) : g.Evolves [k] fs fs := by
  refine ⟨h, id, fun name _ => ?_⟩
  rw [copied?_singleton, if_neg]
  · rfl
  · rintro ⟨rfl, hr⟩
    exact hroom hr

/-- What is written under the name of a copy. -/
theorem Stands.write_copy (h : g.Stands fs) (hk : NamesCopy k.name) :
    (HasRoom g.debug k.name ∧ fs.write (g.debug.join k.name) k.content =
      .ok (fs.set (g.copies ++ [k.name]) (.file k.content))) ∨
    (¬HasRoom g.debug k.name ∧ ∃ e, fs.write (g.debug.join k.name) k.content = .error e) := by
  by_cases hroom : HasRoom g.debug k.name
  · exact .inl ⟨hroom, FileSystem.write_join_of_room h.leads h.copiesAt hk.isName hroom (h.free _ hk) _⟩
  · refine .inr ⟨hroom, ?_⟩
    cases hwrite : fs.write (g.debug.join k.name) k.content with
    | error e => exact ⟨e, rfl⟩
    | ok fs' =>
      refine absurd (FileSystem.hasRoom_of_write h.leads hk.isName (fun target he => ?_) hwrite) hroom
      rcases h.free _ hk with hn | ⟨content, hn⟩ <;> simp [hn] at he

/-! ## Preserving files -/

/-- A path leads to no copy. -/
def Avoids (g : Ground) (fs : FileSystem) (p : Path) : Prop :=
  ∀ found, fs.locate p = .ok found → g.Beside found.location

theorem Avoids.at (h : g.Avoids fs p) {name : String} (hn : NamesCopy name) :
    fs.Avoids p (g.copies ++ [name]) := fun found hl => h found hl name hn

theorem Stands.not_sameFile {name : String} (h : g.Stands fs) (ha : g.Avoids fs p) (hn : NamesCopy name) :
    fs.sameFile p (g.debug.join name) = false := by
  rw [FileSystem.sameFile]
  split
  · next place other hp hcopy =>
    rw [FileSystem.find_eq_ok_iff] at hp hcopy
    obtain ⟨directory, hleads, hplace⟩ := FileSystem.leads_of_locate_join hn.isName hcopy
    obtain rfl : g.copies = directory := FileSystem.Place.taken.inj (Except.ok.inj (h.leads.symm.trans hleads))
    have hother : other = g.copies ++ [name] := hplace.resolve_right fun ⟨target, hlink⟩ => by
      rcases h.free _ hn with hnone | ⟨content, hfile⟩ <;> simp_all
    have hapart : place ≠ g.copies ++ [name] := ha _ hp _ hn
    simp [hother, hapart]
  · rfl

/-- What preserving files does: the files are copied, and all others are read as before. -/
structure Preserves (g : Ground) (kept : List Kept) (m m' : Machine) : Prop where
  alike : m.Alike m'
  looked : m'.looked = m.looked + kept.length
  evolves : g.Evolves kept m.files m'.files
  locates : ∀ {q follow found}, m'.files.locate q follow = .ok found →
    ∃ before, m.files.locate q follow = .ok before ∧ before.location = found.location
  reads : ∀ q, g.Avoids m.files q → ∀ content, m'.files.read q = .ok content ↔ m.files.read q = .ok content

variable {m m₁ m' : Machine} {u : Unit} {role : Role} {paths : List Path}

theorem Preserves.avoids (h : g.Preserves kept m m') (hp : g.Avoids m.files p) : g.Avoids m'.files p :=
  fun found hl => by
    obtain ⟨before, hb, he⟩ := h.locates hl
    exact he ▸ hp before hb

theorem Preserves.refl (h : g.Stands m.files) : g.Preserves [] m m :=
  ⟨.refl m, rfl, .refl h, fun hl => ⟨_, hl, rfl⟩, fun _ _ _ => Iff.rfl⟩

theorem Preserves.trans (h : g.Preserves kept m m₁) (h' : g.Preserves kept' m₁ m') :
    g.Preserves (kept ++ kept') m m' where
  alike := h.alike.trans h'.alike
  looked := by rw [h'.looked, h.looked, List.length_append, Nat.add_assoc]
  evolves := h.evolves.trans h'.evolves
  locates hl := by
    obtain ⟨middle, hm, he⟩ := h'.locates hl
    obtain ⟨before, hb, he'⟩ := h.locates hm
    exact ⟨before, hb, he'.trans he⟩
  reads q hq content := (h'.reads q (h.avoids hq) content).trans (h.reads q hq content)

/-- What is kept of other paths does not depend on the copies that were made. -/
theorem Preserves.keptFrom_eq (h : g.Preserves kept m m') (hp : ∀ p ∈ paths, g.Avoids m.files p)
    (looked : Nat) : keptFrom m'.files m'.clock role looked paths = keptFrom m.files m.clock role looked paths := by
  rw [h.alike.clock]
  exact keptFrom_congr fun p hm => h.reads p (hp p hm)

theorem preserves_copied (h : g.Stands m.files) (hk : NamesCopy k.name) (hroom : HasRoom g.debug k.name)
    (ha : m.Alike m') (hl : m'.looked = m.looked + 1)
    (hf : m'.files = m.files.set (g.copies ++ [k.name]) (.file k.content)) : g.Preserves [k] m m' := by
  have hne : g.copies ++ [k.name] ≠ [] := by simp
  have hfree := h.free _ hk
  refine ⟨ha, hl, hf ▸ evolves_copy h hk hroom, fun hl => ?_, fun q hq content => ?_⟩
  · exact FileSystem.locate_set_file hne hfree (hf ▸ hl)
  · rw [hf]
    exact FileSystem.read_set_file (hq.at hk) hne hfree content

theorem preserves_uncopied (h : g.Stands m.files) (hroom : ¬HasRoom g.debug k.name) (ha : m.Alike m')
    (hl : m'.looked = m.looked + 1) (hf : m'.files = m.files) : g.Preserves [k] m m' := by
  refine ⟨ha, hl, ?_, fun hl => ⟨_, hf ▸ hl, rfl⟩, fun _ _ _ => by rw [hf]⟩
  rw [hf]
  exact evolves_uncopied h hroom

/-- One path: what is no file is passed over, and a file is copied if its name has room. -/
theorem preserve_preserves (h : Run.Ends (preserve g.debug role p) m u m') (hs : g.Stands m.files)
    (hc : ∀ n, IsTime (m.clock n)) (hp : g.Avoids m.files p) :
    g.Preserves (keptFrom m.files m.clock role m.looked [p]) m m' := by
  simp only [preserve, Run.ends_bind, Machine.ends_getFiles] at h
  obtain ⟨_, m₀, ⟨rfl, hm⟩, h⟩ := h
  rw [hm] at h
  cases hread : m.files.read p with
  | error e =>
    rw [if_neg fun hfile => by simpa [hread] using FileSystem.isFile_iff.1 hfile] at h
    obtain ⟨-, rfl⟩ := Run.ends_pure.1 h
    simpa [keptFrom, hread] using Preserves.refl hs
  | ok content =>
    generalize hk : Kept.mk (m.clock m.looked) role p.fileName content = k
    have hkept : keptFrom m.files m.clock role m.looked [p] = [k] := by simp [keptFrom, hread, hk]
    have hnames : NamesCopy k.name := hk ▸ ⟨_, role, _, hc m.looked, p.not_slash_of_fileName, rfl⟩
    have hcontent : content = k.content := by rw [← hk]
    have hpath : copyPath g.debug (m.clock m.looked) role p = g.debug.join k.name := by
      rw [copyPath_eq, ← hk, Kept.name]
    have hcopy : m.files.copy p (copyPath g.debug (m.clock m.looked) role p) =
        m.files.write (g.debug.join k.name) k.content := by
      simp [FileSystem.copy, hread, bind, Except.bind, hpath, hs.not_sameFile hp hnames, hcontent]
    rw [hkept]
    rw [if_pos (FileSystem.isFile_iff.2 ⟨content, hread⟩)] at h
    simp only [Run.ends_bind, Machine.ends_lookAtClock] at h
    obtain ⟨_, _, ⟨rfl, rfl⟩, made, m₁, hchange, h⟩ := h
    rcases Machine.ends_change.1 hchange with ⟨fs, hmade, rfl, rfl⟩ | ⟨e, hmade, rfl, rfl⟩
    · obtain rfl := Machine.ends_report.1 h
      rcases hs.write_copy hnames with ⟨hroom, hw⟩ | ⟨-, e, hw⟩
      · exact preserves_copied hs hnames hroom ⟨rfl, rfl, rfl, rfl⟩ rfl
          (Except.ok.inj (hmade.symm.trans (hcopy.trans hw)))
      · cases hmade.symm.trans (hcopy.trans hw)
    · obtain rfl := Machine.ends_report.1 h
      rcases hs.write_copy hnames with ⟨-, hw⟩ | ⟨hroom, -⟩
      · cases hmade.symm.trans (hcopy.trans hw)
      · exact preserves_uncopied hs hroom ⟨rfl, rfl, rfl, rfl⟩ rfl rfl

theorem preserveAll_preserves (h : Run.Ends (preserveAll g.debug role paths) m u m') (hs : g.Stands m.files)
    (hc : ∀ n, IsTime (m.clock n)) (hp : ∀ p ∈ paths, g.Avoids m.files p) :
    g.Preserves (keptFrom m.files m.clock role m.looked paths) m m' := by
  induction paths generalizing m with
  | nil =>
    obtain ⟨-, rfl⟩ := Run.ends_pure.1 h
    exact .refl hs
  | cons p paths ih =>
    obtain ⟨hhere, hpaths⟩ := List.forall_mem_cons.1 hp
    obtain ⟨_, m₁, hone, h⟩ := Run.ends_bind.1 h
    have hfirst := preserve_preserves hone hs hc hhere
    have hrest := ih h hfirst.evolves.stands (hfirst.alike.clock ▸ hc)
      fun q hq => hfirst.avoids (hpaths q hq)
    rw [hfirst.keptFrom_eq hpaths, hfirst.looked] at hrest
    rw [keptFrom_cons]
    exact hfirst.trans hrest

end Ground

end Galley.Workspace
