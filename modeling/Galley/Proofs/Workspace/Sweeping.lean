import Galley.Proofs.FileSystem.Escaped
import Galley.Proofs.FileSystem.Visited
import Galley.Proofs.FileSystem.Without
import Galley.Proofs.Machine.Run
import Galley.Workspace.Sweep

/-! # What the sweep removes

The sweep decides about one path after the other, and what it removed before may be what a later link led to.
Where no link that it looks at leads to such another entry, it decides as on the files that it found. It
removes the leftovers and nothing else, and there are none after it. -/

namespace Galley.Workspace

variable {fs fs' : FileSystem} {place : Location} {name : String} {gone : List String} {r : Removal}
  {m : Machine} {w : Workspace}

/-! ## What is removed -/

/-- A name that the sweep looks at. -/
def IsScratchName (name : String) : Prop :=
  jobStart.toList <+: name.toList ∨ Dependency.scratchStart.toList <+: name.toList

instance (name : String) : Decidable (IsScratchName name) := inferInstanceAs (Decidable (_ ∨ _))

/-- What a run that ended early left under a name in the scratch directory. A link counts as what its path leads
to: a directory is left when it is named like a job, and a file when it is named like a dependency. -/
structure IsLeftover (fs : FileSystem) (place : Location) (name : String) : Prop where
  isThere : fs.node? (place ++ [name]) ≠ none
  kind : jobStart.toList <+: name.toList ∧ fs.isDirectory (.ofLocation (place ++ [name])) = true ∨
    Dependency.scratchStart.toList <+: name.toList ∧ fs.isFile (.ofLocation (place ++ [name])) = true

theorem IsLeftover.isScratchName (h : IsLeftover fs place name) : IsScratchName name :=
  h.kind.imp And.left And.left

/-- A directory whose entries can be swept one by one: no link that the sweep looks at leads, through whatever
links, to another entry that the sweep looks at, or into one. -/
structure IsScratchDirectory (fs : FileSystem) (place : Location) : Prop where
  directory : fs.IsDirectoryAt place
  noSlash : ∀ name, fs.node? (place ++ [name]) ≠ none → '/' ∉ name.toList
  apart : ∀ name target, IsScratchName name → fs.node? (place ++ [name]) = some (.link target) →
    ∀ visited, fs.Visits place [name.toList] visited →
      ∀ other, IsScratchName other → other ≠ name → fs.node? (place ++ [other]) ≠ none →
        ¬place ++ [other] <+: visited

theorem IsScratchDirectory.isName (h : IsScratchDirectory fs place) (hs : IsScratchName name)
    (hn : fs.node? (place ++ [name]) ≠ none) : Path.IsName name := by
  obtain ⟨start, hstart, rest, hname⟩ : ∃ start ∈ [jobStart, Dependency.scratchStart],
      start.toList <+: name.toList := by
    rcases hs with hs | hs
    · exact ⟨_, by simp, hs⟩
    · exact ⟨_, by simp, hs⟩
  refine ⟨h.noSlash name hn, ?_, ?_⟩
  · rw [← hname]
    rcases List.mem_pair.1 hstart with rfl | rfl <;> rfl
  · rw [← hname]
    rcases List.mem_pair.1 hstart with rfl | rfl <;> simp [jobStart, Dependency.scratchStart]

/-- After some of the entries went, the others are what they were. -/
theorem IsScratchDirectory.status_eq (h : IsScratchDirectory fs place) (hw : fs.Without place gone fs')
    (hgone : ∀ other ∈ gone, IsScratchName other ∧ fs.node? (place ++ [other]) ≠ none)
    (hs : IsScratchName name) (hn : fs.node? (place ++ [name]) ≠ none) (hkept : name ∉ gone) :
    fs'.status (.ofLocation (place ++ [name])) = fs.status (.ofLocation (place ++ [name])) := by
  have hname := h.isName hs hn
  refine FileSystem.status_child_eq h.directory (hw.isDirectoryAt h.directory) hname fun visited hv => ?_
  refine hw.kept fun other hm => ?_
  obtain ⟨hother, hthere⟩ := hgone other hm
  have hne : other ≠ name := fun he => hkept (he ▸ hm)
  -- only a link leads away from the name itself
  by_cases hlink : ∃ target, fs.node? (place ++ [name]) = some (.link target)
  · obtain ⟨target, hlink⟩ := hlink
    exact h.apart name target hs hlink visited hv other hother hne hthere
  · rw [FileSystem.eq_of_visits_child hname (fun target ht => hlink ⟨target, ht⟩) hv,
      FileSystem.isPrefix_child]
    exact hne

/-! ## Removals -/

/-- A removal that goes by what its path leads to, and removes what stands under the name itself. -/
structure Removal.IsLawful (r : Removal) : Prop where
  applies_eq : ∀ {fs fs' : FileSystem} {p : Path}, fs'.status p = fs.status p →
    r.applies fs' p = r.applies fs p
  exists_status : ∀ {fs : FileSystem} {p : Path}, r.applies fs p = true → ∃ node, fs.status p = .ok node
  remove_eq : ∀ {fs : FileSystem} {place : Location} {name : String}, fs.IsDirectoryAt place →
    Path.IsName name → r.applies fs (.ofLocation (place ++ [name])) = true →
    r.remove fs (.ofLocation (place ++ [name])) = .ok (fs.remove (place ++ [name]))
  isScratchName : ∀ {name : String}, r.start.toList <+: name.toList → IsScratchName name
  plain : ∀ c ∈ r.start.toList, ¬Glob.isSpecial c = true
  noSlash : '/' ∉ r.start.toList
  notDots : ¬r.start.toList <+: ['.', '.']

theorem jobRemoval_isLawful : jobRemoval.IsLawful where
  applies_eq h := by simp only [jobRemoval, FileSystem.isDirectory, h]
  exists_status h := ⟨_, FileSystem.isDirectory_iff.1 h⟩
  remove_eq {fs place name} hd hn h := by
    obtain ⟨hfind, hnode⟩ := FileSystem.node_of_status_child hd hn (FileSystem.isDirectory_iff.1 h)
    rcases hnode with hnode | ⟨target, hnode⟩ <;>
      simp [jobRemoval, FileSystem.removeTree, hfind, hnode, bind, Except.bind]
  isScratchName := .inl
  plain := by simp [jobRemoval, jobStart, Glob.isSpecial]
  noSlash := by decide
  notDots := by decide

theorem dependencyRemoval_isLawful : dependencyRemoval.IsLawful where
  applies_eq h := by simp only [dependencyRemoval, FileSystem.isFile, h]
  exists_status h := by
    obtain ⟨content, hread⟩ := FileSystem.isFile_iff.1 h
    exact ⟨_, FileSystem.read_eq_ok_iff.1 hread⟩
  remove_eq {fs place name} hd hn h := by
    obtain ⟨content, hread⟩ := FileSystem.isFile_iff.1 h
    obtain ⟨hfind, hnode⟩ :=
      FileSystem.node_of_status_child hd hn (FileSystem.read_eq_ok_iff.1 hread)
    have hl := FileSystem.find_eq_ok_iff.1 hfind
    have hslash : FileSystem.endsInSlash (.ofLocation (place ++ [name])) = false :=
      FileSystem.endsInSlash_of_isFile h
    rw [← FileSystem.locateName_child hn] at hl
    rcases hnode with hnode | ⟨target, hnode⟩ <;>
      simp [dependencyRemoval, FileSystem.removeFile, hl, hnode, hslash, bind, Except.bind]
  isScratchName := .inr
  plain := by simp [dependencyRemoval, Dependency.scratchStart, Glob.isSpecial]
  noSlash := by decide
  notDots := by decide

/-! ## Passes -/

theorem sweepPaths_of_applies {p : Path} {rest : List Path} {n : Nat} {m' : Machine}
    (ha : r.applies m.files p = true) (hr : r.remove m.files p = .ok fs)
    (h : (sweepPaths r rest).Ends { m with files := fs } n m') :
    (sweepPaths r (p :: rest)).Ends m (1 + n) m' := by
  rw [sweepPaths, Run.ends_bind]
  refine ⟨m.files, m, Machine.ends_getFiles.2 ⟨rfl, rfl⟩, ?_⟩
  rw [if_pos ha, Run.ends_bind]
  refine ⟨.ok (), _, Machine.ends_change.2 (.inl ⟨fs, hr, rfl, rfl⟩), ?_⟩
  rw [Run.ends_bind]
  exact ⟨n, m', h, Run.ends_pure.2 ⟨rfl, rfl⟩⟩

theorem sweepPaths_of_not_applies {p : Path} {rest : List Path} {n : Nat} {m' : Machine}
    (ha : r.applies m.files p = false) (h : (sweepPaths r rest).Ends m n m') :
    (sweepPaths r (p :: rest)).Ends m n m' := by
  rw [sweepPaths, Run.ends_bind]
  refine ⟨m.files, m, Machine.ends_getFiles.2 ⟨rfl, rfl⟩, ?_⟩
  rwa [if_neg (by simp [ha])]

/-- What a removal applies to among names in the scratch directory. -/
def Removal.among (r : Removal) (fs : FileSystem) (place : Location) (names : List String) : List String :=
  names.filter fun name => r.applies fs (.ofLocation (place ++ [name]))

/-- A pass over names that are still there removes those that the removal applied to before anything went. -/
theorem sweepPaths_removes (hs : IsScratchDirectory fs place) (hr : r.IsLawful)
    (hw : fs.Without place gone m.files)
    (hgone : ∀ other ∈ gone, IsScratchName other ∧ fs.node? (place ++ [other]) ≠ none)
    {names : List String} (hnodup : names.Nodup)
    (hnames : ∀ name ∈ names, IsScratchName name ∧ fs.node? (place ++ [name]) ≠ none ∧ name ∉ gone) :
    ∃ m', (sweepPaths r (names.map fun name => .ofLocation (place ++ [name]))).Ends m
        (r.among fs place names).length m' ∧
      fs.Without place (gone ++ r.among fs place names) m'.files := by
  -- what is gone grows by each name that is removed, and the files it is taken from stay the first ones
  induction names generalizing gone m with
  | nil =>
    refine ⟨m, Run.ends_pure.2 ⟨rfl, rfl⟩, ?_⟩
    simpa [Removal.among] using hw
  | cons name names ih =>
    obtain ⟨hname, hthere, hkept⟩ := hnames name (by simp)
    obtain ⟨hfresh, hnodup⟩ := List.nodup_cons.1 hnodup
    have hrest : ∀ other ∈ names,
        IsScratchName other ∧ fs.node? (place ++ [other]) ≠ none ∧ other ∉ gone := fun other hm =>
      hnames other (List.mem_cons_of_mem _ hm)
    have hsame := hr.applies_eq (hs.status_eq hw hgone hname hthere hkept)
    by_cases ha : r.applies fs (.ofLocation (place ++ [name])) = true
    · have hamong : r.among fs place (name :: names) = name :: r.among fs place names :=
        List.filter_cons_of_pos ha
      have hremove := hr.remove_eq (hw.isDirectoryAt hs.directory) (hs.isName hname hthere)
        (hsame.trans ha)
      have hgone' : ∀ other ∈ gone ++ [name],
          IsScratchName other ∧ fs.node? (place ++ [other]) ≠ none := by
        intro other hm
        rcases List.mem_append.1 hm with hm | hm
        · exact hgone other hm
        · rw [List.mem_singleton.1 hm]
          exact ⟨hname, hthere⟩
      obtain ⟨m', hends, hwithout⟩ := @ih (gone ++ [name]) { m with files := m.files.remove (place ++ [name]) }
        (hw.remove name) hgone' hnodup fun other hm => by
          obtain ⟨hscratch, hnode, hnot⟩ := hrest other hm
          refine ⟨hscratch, hnode, ?_⟩
          rw [List.mem_append, List.mem_singleton, not_or]
          exact ⟨hnot, fun he => hfresh (he ▸ hm)⟩
      refine ⟨m', ?_, by simpa [hamong] using hwithout⟩
      rw [hamong, List.length_cons, Nat.add_comm]
      exact sweepPaths_of_applies (hsame.trans ha) hremove hends
    · have hamong : r.among fs place (name :: names) = r.among fs place names :=
        List.filter_cons_of_neg ha
      obtain ⟨m', hends, hwithout⟩ := ih hw hgone hnodup hrest
      rw [hamong]
      exact ⟨m', sweepPaths_of_not_applies (hsame.trans (by simpa using ha)) hends, hwithout⟩

theorem walkable_of_applies (hr : r.IsLawful) (ha : r.applies fs (.ofLocation (place ++ [name])) = true) :
    FileSystem.IsWalkable (.ofLocation place) := by
  obtain ⟨node, hstatus⟩ := hr.exists_status ha
  obtain ⟨found, hf, -⟩ := FileSystem.status_eq_ok_iff.1 hstatus
  exact Glob.walkable_above (FileSystem.isWalkable_of_locate (FileSystem.find_eq_ok_iff.1 hf))

/-- The names that a pass goes over: those that begin as it says, of the entries that did not go. -/
theorem exists_names (hs : IsScratchDirectory fs place) (hr : r.IsLawful)
    (hdirectory : w.directory = .ofLocation place) (hw : fs.Without place gone fs') :
    ∃ names : List String, names.Nodup ∧
      Glob.paths? fs' (w.sweepPattern r.start) =
        some (names.map fun name => .ofLocation (place ++ [name])) ∧
      ∀ name, name ∈ names ↔ FileSystem.IsWalkable (.ofLocation place) ∧
        (fs.node? (place ++ [name]) ≠ none ∧ name ∉ gone) ∧ r.start.toList <+: name.toList := by
  have hat := hw.isDirectoryAt hs.directory
  rw [sweepPattern, hdirectory, Glob.paths?_escape hat hr.plain hr.noSlash hr.notDots]
  by_cases hd : fs'.isDirectory (.ofLocation place) = true
  · have hwalkable := FileSystem.isWalkable_of_locate
      (FileSystem.find_eq_ok_iff.1 (Glob.find_of_isDirectory hat hd))
    have hm : ∀ name, name ∈ Glob.namesStarting fs' r.start place ↔
        (fs.node? (place ++ [name]) ≠ none ∧ name ∉ gone) ∧ r.start.toList <+: name.toList := by
      intro name
      rw [Glob.mem_namesStarting, hw.child]
      by_cases hin : name ∈ gone <;> simp [hin]
    refine ⟨Glob.namesStarting fs' r.start place, Glob.nodup_namesStarting _ _ _, ?_, fun name => ?_⟩
    · rw [if_pos hd]
      refine congrArg some (List.map_congr_left fun name hin => ?_)
      obtain ⟨⟨hthere, -⟩, hstart⟩ := (hm name).1 hin
      exact Path.join_ofLocation hs.directory.direct.isName (hs.isName (hr.isScratchName hstart) hthere)
    · rw [hm, and_iff_right hwalkable]
  · refine ⟨[], .nil, by rw [if_neg hd, List.map_nil], fun name => ⟨fun hin => (List.not_mem_nil hin).elim, ?_⟩⟩
    rintro ⟨hwalkable, -⟩
    exact absurd (Glob.isDirectory_of_walkable hat hwalkable) hd

/-- One pass of the sweep, after some of the entries went. -/
theorem sweepFor_removes (hs : IsScratchDirectory fs place) (hr : r.IsLawful)
    (hdirectory : w.directory = .ofLocation place) (hw : fs.Without place gone m.files)
    (hgone : ∀ other ∈ gone, IsScratchName other ∧ fs.node? (place ++ [other]) ≠ none) :
    ∃ (swept : List String) (m' : Machine), (w.sweepFor r).Ends m swept.length m' ∧ swept.Nodup ∧
      (∀ name, name ∈ swept ↔ (fs.node? (place ++ [name]) ≠ none ∧ name ∉ gone) ∧
        r.start.toList <+: name.toList ∧ r.applies fs (.ofLocation (place ++ [name])) = true) ∧
      fs.Without place (gone ++ swept) m'.files := by
  obtain ⟨names, hnodup, hpaths, hm⟩ := exists_names hs hr hdirectory hw
  obtain ⟨m', hends, hwithout⟩ := sweepPaths_removes hs hr hw hgone hnodup fun name hin =>
    have ⟨_, ⟨hthere, hkept⟩, hstart⟩ := (hm name).1 hin
    ⟨hr.isScratchName hstart, hthere, hkept⟩
  refine ⟨r.among fs place names, m', ?_, hnodup.filter _, fun name => ?_, hwithout⟩
  · rw [sweepFor, Run.ends_bind]
    refine ⟨m.files, m, Machine.ends_getFiles.2 ⟨rfl, rfl⟩, ?_⟩
    simpa only [hpaths] using hends
  · rw [Removal.among, List.mem_filter, hm]
    constructor
    · rintro ⟨⟨-, hthere, hstart⟩, ha⟩
      exact ⟨hthere, hstart, ha⟩
    · rintro ⟨hthere, hstart, ha⟩
      exact ⟨⟨walkable_of_applies hr ha, hthere, hstart⟩, ha⟩

/-! ## The sweep -/

theorem sweep_ends {jobs dependencies : Nat} {m₁ m₂ : Machine} (hjobs : (w.sweepFor jobRemoval).Ends m jobs m₁)
    (hdependencies : (w.sweepFor dependencyRemoval).Ends m₁ dependencies m₂) :
    w.sweep.Ends m (jobs + dependencies)
      { m₂ with journal := m₂.journal ++ [.swept (jobs + dependencies)] } := by
  rw [sweep, Run.ends_bind]
  refine ⟨jobs, m₁, hjobs, ?_⟩
  rw [Run.ends_bind]
  refine ⟨dependencies, m₂, hdependencies, ?_⟩
  rw [Run.ends_bind]
  exact ⟨(), _, Machine.ends_report.2 rfl, Run.ends_pure.2 ⟨rfl, rfl⟩⟩

/-- The sweep, after some of the entries went, removes the leftovers among the others. -/
theorem sweep_removes (hs : IsScratchDirectory fs place) (hdirectory : w.directory = .ofLocation place)
    (hw : fs.Without place gone m.files)
    (hgone : ∀ other ∈ gone, IsScratchName other ∧ fs.node? (place ++ [other]) ≠ none) :
    ∃ (swept : List String) (m' : Machine), w.sweep.Ends m swept.length m' ∧ swept.Nodup ∧
      (∀ name, name ∈ swept ↔ IsLeftover fs place name ∧ name ∉ gone) ∧
      fs.Without place (gone ++ swept) m'.files := by
  obtain ⟨jobs, m₁, hjobs, hnodup, hm, hw₁⟩ := sweepFor_removes hs jobRemoval_isLawful hdirectory hw hgone
  have hgone₁ : ∀ other ∈ gone ++ jobs, IsScratchName other ∧ fs.node? (place ++ [other]) ≠ none := by
    intro other hin
    rcases List.mem_append.1 hin with hin | hin
    · exact hgone other hin
    · obtain ⟨⟨hthere, -⟩, hstart, -⟩ := (hm other).1 hin
      exact ⟨.inl hstart, hthere⟩
  obtain ⟨files, m₂, hfiles, hnodup', hm', hw₂⟩ :=
    sweepFor_removes hs dependencyRemoval_isLawful hdirectory hw₁ hgone₁
  refine ⟨jobs ++ files, _, List.length_append ▸ sweep_ends hjobs hfiles, ?_, fun name => ?_, ?_⟩
  · refine List.nodup_append.2 ⟨hnodup, hnodup', fun a ha b hb => ?_⟩
    rintro rfl
    exact ((hm' a).1 hb).1.2 (List.mem_append_right _ ha)
  · constructor
    · intro hin
      rcases List.mem_append.1 hin with hin | hin
      · obtain ⟨⟨hthere, hkept⟩, hkind⟩ := (hm name).1 hin
        exact ⟨⟨hthere, .inl hkind⟩, hkept⟩
      · obtain ⟨⟨hthere, hkept⟩, hkind⟩ := (hm' name).1 hin
        exact ⟨⟨hthere, .inr hkind⟩, fun hg => hkept (List.mem_append_left _ hg)⟩
    · rintro ⟨⟨hthere, hkind⟩, hkept⟩
      by_cases hin : name ∈ jobs
      · exact List.mem_append_left _ hin
      · rcases hkind with hkind | hkind
        · exact absurd ((hm name).2 ⟨⟨hthere, hkept⟩, hkind⟩) hin
        · refine List.mem_append_right _ ((hm' name).2 ⟨⟨hthere, ?_⟩, hkind⟩)
          rw [List.mem_append, not_or]
          exact ⟨hkept, hin⟩
  · rwa [← List.append_assoc]

/-- The sweep removes the leftovers and counts them. Whatever else stood anywhere still stands, and there is
nothing to remove for another sweep. -/
theorem sweep_removes_leftovers (hdirectory : w.directory = .ofLocation place)
    (hs : IsScratchDirectory m.files place) :
    ∃ (swept : List String) (m' m'' : Machine), w.sweep.Ends m swept.length m' ∧ swept.Nodup ∧
      (∀ name, name ∈ swept ↔ IsLeftover m.files place name) ∧
      m.files.Without place swept m'.files ∧
      w.sweep.Ends m' 0 m'' ∧ m.files.Without place swept m''.files := by
  obtain ⟨swept, m', hends, hnodup, hm, hw⟩ := sweep_removes hs hdirectory (.refl m.files place) (by simp)
  have hleft : ∀ name, name ∈ swept ↔ IsLeftover m.files place name := fun name => by
    simpa using hm name
  -- the other sweep begins with all leftovers gone, and there are no others
  obtain ⟨again, m'', hends', -, hm', hw'⟩ := sweep_removes hs hdirectory hw fun other hin =>
    have hother := (hleft other).1 hin
    ⟨hother.isScratchName, hother.isThere⟩
  obtain rfl : again = [] := List.eq_nil_iff_forall_not_mem.2 fun name hin =>
    have ⟨hleftover, hkept⟩ := (hm' name).1 hin
    hkept ((hleft name).2 hleftover)
  exact ⟨swept, m', m'', hends, hnodup, hleft, hw, hends', by simpa using hw'⟩

/-! ## Links out of the scratch directory -/

/-- A scratch directory under a name of characters that mean something in patterns. In it lie a job with a file,
a link to a directory elsewhere, a link to nothing, a dependency, and a link that leads through another one to a
file elsewhere. -/
def linkedFiles : FileSystem where
  entries := [(["out"], .directory), (["out", "kept"], .file [0x61]), (["s[a]*?"], .directory),
    (["s[a]*?", "typst_a"], .directory), (["s[a]*?", "typst_a", "typst_a.typ"], .file [0x61]),
    (["s[a]*?", "typst_b"], .link "../out"), (["s[a]*?", "typst_c"], .link "gone"),
    (["s[a]*?", "imported_a"], .file [0x61]), (["s[a]*?", "imported_b"], .link "last"),
    (["s[a]*?", "last"], .link "/out/kept")]
  current := []
  distinct := by decide

def linkedMachine : Machine where
  files := linkedFiles
  environment := ⟨[]⟩
  programs := fun _ fs => (.exited (some 0) [] [], fs)
  names := fun _ => "n"
  clock := fun _ => "0"

def linkedWorkspace : Workspace := ⟨.ofLocation ["s[a]*?"], none⟩

theorem directoryAt_linked : linkedFiles.IsDirectoryAt ["s[a]*?"] :=
  ⟨(FileSystem.Direct.root _).append rfl (by decide) (by decide), rfl⟩

theorem node_linked : linkedFiles.node? ["s[a]*?", "typst_a"] = some .directory ∧
    linkedFiles.node? ["s[a]*?", "typst_b"] = some (.link "../out") ∧
    linkedFiles.node? ["s[a]*?", "typst_c"] = some (.link "gone") ∧
    linkedFiles.node? ["s[a]*?", "imported_a"] = some (.file [0x61]) ∧
    linkedFiles.node? ["s[a]*?", "imported_b"] = some (.link "last") ∧
    linkedFiles.node? ["s[a]*?", "last"] = some (.link "/out/kept") ∧
    linkedFiles.node? ["s[a]*?", "gone"] = none ∧ linkedFiles.node? ["out"] = some .directory ∧
    linkedFiles.node? ["out", "kept"] = some (.file [0x61]) := by decide

theorem names_linked : linkedFiles.names ["s[a]*?"] =
    ["typst_a", "typst_b", "typst_c", "imported_a", "imported_b", "last"] := by decide

theorem targets_linked : (⟨"../out"⟩ : Path).segments = [['.', '.'], "out".toList] ∧
    (⟨"gone"⟩ : Path).segments = ["gone".toList] ∧ (⟨"last"⟩ : Path).segments = ["last".toList] ∧
    (⟨"/out/kept"⟩ : Path).segments = [[], "out".toList, "kept".toList] ∧
    (⟨"../out"⟩ : Path).isAbsolute = false ∧ (⟨"gone"⟩ : Path).isAbsolute = false ∧
    (⟨"last"⟩ : Path).isAbsolute = false ∧ (⟨"/out/kept"⟩ : Path).isAbsolute = true := by decide

/-- Where the names in the directory lead. -/
theorem walk_linked :
    linkedFiles.walk true FileSystem.linkLimit ["s[a]*?"] ["typst_a".toList] =
      .ok (.taken ["s[a]*?", "typst_a"]) ∧
    linkedFiles.walk true FileSystem.linkLimit ["s[a]*?"] ["typst_b".toList] = .ok (.taken ["out"]) ∧
    linkedFiles.walk true FileSystem.linkLimit ["s[a]*?"] ["typst_c".toList] =
      .ok (.vacant ["s[a]*?"] "gone" false) ∧
    linkedFiles.walk true FileSystem.linkLimit ["s[a]*?"] ["imported_a".toList] =
      .ok (.taken ["s[a]*?", "imported_a"]) ∧
    linkedFiles.walk true FileSystem.linkLimit ["s[a]*?"] ["imported_b".toList] =
      .ok (.taken ["out", "kept"]) := by
  simp [FileSystem.walk, FileSystem.linkLimit, FileSystem.nameLimit, FileSystem.targetStart, Path.isIdle,
    Text.utf8Size, Char.utf8Size, node_linked, targets_linked]

theorem isDirectory_linked {name : String} (hm : name ∈ ["typst_a", "typst_b"]) :
    linkedFiles.isDirectory (.ofLocation (["s[a]*?"] ++ [name])) = true := by
  rw [FileSystem.isDirectory_iff]
  obtain ⟨hjob, hdirectory, -⟩ := walk_linked
  rcases List.mem_pair.1 hm with rfl | rfl
  · exact FileSystem.status_child_of_walk directoryAt_linked (by decide) (by decide) hjob (by decide)
  · exact FileSystem.status_child_of_walk directoryAt_linked (by decide) (by decide) hdirectory (by decide)

theorem not_isDirectory_linked : ¬linkedFiles.isDirectory (.ofLocation (["s[a]*?"] ++ ["typst_c"])) = true := by
  intro h
  obtain ⟨found, hf, -⟩ := FileSystem.status_eq_ok_iff.1 (FileSystem.isDirectory_iff.1 h)
  have hw := FileSystem.walk_child directoryAt_linked (by decide) (FileSystem.find_eq_ok_iff.1 hf)
  rw [walk_linked.2.2.1] at hw
  cases hw

theorem isFile_linked {name : String} (hm : name ∈ ["imported_a", "imported_b"]) :
    linkedFiles.isFile (.ofLocation (["s[a]*?"] ++ [name])) = true := by
  refine FileSystem.isFile_iff.2 ⟨[0x61], FileSystem.read_eq_ok_iff.2 ?_⟩
  obtain ⟨-, -, -, hdependency, hfile⟩ := walk_linked
  rcases List.mem_pair.1 hm with rfl | rfl
  · exact FileSystem.status_child_of_walk directoryAt_linked (by decide) (by decide) hdependency (by decide)
  · exact FileSystem.status_child_of_walk directoryAt_linked (by decide) (by decide) hfile (by decide)

theorem isLeftover_linked_iff (name : String) : IsLeftover linkedFiles ["s[a]*?"] name ↔
    name ∈ ["typst_a", "typst_b"] ++ ["imported_a", "imported_b"] := by
  constructor
  · rintro ⟨hthere, hkind⟩
    rw [← FileSystem.mem_names, names_linked] at hthere
    simp only [List.mem_cons, List.not_mem_nil, or_false] at hthere
    rcases hthere with rfl | rfl | rfl | rfl | rfl | rfl
    · decide
    · decide
    · rcases hkind with ⟨-, hd⟩ | ⟨hstart, -⟩
      · exact absurd hd not_isDirectory_linked
      · exact absurd hstart (by decide)
    · decide
    · decide
    · rcases hkind with ⟨hstart, -⟩ | ⟨hstart, -⟩ <;> exact absurd hstart (by decide)
  · intro hm
    have hthere : linkedFiles.node? (["s[a]*?"] ++ [name]) ≠ none := by
      rw [← FileSystem.mem_names, names_linked]
      revert name
      decide
    rcases List.mem_append.1 hm with hm | hm
    · refine ⟨hthere, .inl ⟨?_, isDirectory_linked hm⟩⟩
      revert name
      decide
    · refine ⟨hthere, .inr ⟨?_, isFile_linked hm⟩⟩
      revert name
      decide

/-- What is visited from the links in the directory that the sweep looks at. -/
theorem visits_linked {name target : String} {visited : Location}
    (hlink : linkedFiles.node? (["s[a]*?"] ++ [name]) = some (.link target)) (hs : IsScratchName name)
    (hv : linkedFiles.Visits ["s[a]*?"] [name.toList] visited) :
    visited ∈ [["s[a]*?", name], ["s[a]*?", "gone"], ["s[a]*?", "last"], ["out"], ["out", "kept"]] := by
  have hthere : name ∈ linkedFiles.names ["s[a]*?"] := FileSystem.mem_names.2 (hlink ▸ Option.some_ne_none _)
  rw [names_linked] at hthere
  simp only [List.mem_cons, List.not_mem_nil, or_false] at hthere
  rcases hthere with rfl | rfl | rfl | rfl | rfl | rfl
  · simp [node_linked] at hlink
  · simp [FileSystem.visits_name_iff, FileSystem.visits_up_iff, FileSystem.visits_nil_iff,
      FileSystem.targetStart, Path.isIdle, node_linked, targets_linked] at hv
    rcases hv with rfl | rfl <;> simp
  · simp [FileSystem.visits_name_iff, FileSystem.targetStart, Path.isIdle, node_linked, targets_linked] at hv
    rcases hv with rfl | rfl <;> simp
  · simp [node_linked] at hlink
  · simp [FileSystem.visits_name_iff, FileSystem.visits_idle_iff, FileSystem.targetStart, Path.isIdle,
      node_linked, targets_linked] at hv
    rcases hv with rfl | rfl | rfl | rfl <;> simp
  · exact absurd hs (by decide)

theorem isScratchDirectory_linked : IsScratchDirectory linkedFiles ["s[a]*?"] where
  directory := directoryAt_linked
  noSlash name h := by
    rw [← FileSystem.mem_names, names_linked] at h
    revert name
    decide
  apart name target hs hlink visited hv other ho hne _ hpre := by
    have hgone : other ≠ "gone" ∧ other ≠ "last" := by
      constructor <;> (rintro rfl; exact absurd ho (by decide))
    have hm := visits_linked hlink hs hv
    simp only [List.mem_cons, List.not_mem_nil, or_false] at hm
    rcases hm with rfl | rfl | rfl | rfl | rfl <;> simp_all

/-- The job and the dependency go, and of the links that lead out of the directory only the links themselves. -/
theorem sweep_removes_leftovers_linked : IsScratchDirectory linkedFiles ["s[a]*?"] ∧
    ∃ swept m' m'', List.Perm swept (["typst_a", "typst_b"] ++ ["imported_a", "imported_b"]) ∧
      linkedWorkspace.sweep.Ends linkedMachine 4 m' ∧ linkedFiles.Without ["s[a]*?"] swept m'.files ∧
      linkedWorkspace.sweep.Ends m' 0 m'' := by
  obtain ⟨swept, m', m'', hends, hnodup, hm, hw, hagain, -⟩ :=
    @sweep_removes_leftovers ["s[a]*?"] linkedMachine linkedWorkspace rfl isScratchDirectory_linked
  have hperm : swept.Perm (["typst_a", "typst_b"] ++ ["imported_a", "imported_b"]) :=
    (List.perm_ext_iff_of_nodup hnodup (by decide)).2 fun name => (hm name).trans (isLeftover_linked_iff name)
  refine ⟨isScratchDirectory_linked, swept, m', m'', hperm, ?_, hw, hagain⟩
  simpa [hperm.length_eq] using hends

end Galley.Workspace
