import Galley.Proofs.FileSystem.Made
import Galley.Proofs.Machine.Run
import Galley.Workspace.Job

/-! # Opening a workspace and a job

A workspace is opened by making directories, at fronts of the paths of its settings. A job is opened by
making one more, under a name that was free. -/

namespace Galley

/-- The directories that settings ask for. -/
def Settings.scratchDirectories (s : Settings) : List Path :=
  s.workingDirectory :: if s.debug then [s.debugDirectory] else []

namespace Workspace

variable {m m' : Machine} {s : Settings} {p : Path}

theorem ensureDirectory_ends {r : Except Failure Unit} (h : (ensureDirectory p).Ends m r m') :
    m.Alike m' ∧ m.files.MakesDirectories p m'.files ∧ NoRefusal r := by
  simp only [ensureDirectory, Attempt.ends_mk, Run.ends_bind, Machine.ends_changePartly,
    Run.ends_pure] at h
  obtain ⟨made, m₁, ⟨rfl, rfl⟩, rfl, rfl⟩ := h
  refine ⟨⟨rfl, rfl, rfl, rfl⟩, FileSystem.makesDirectories_ensure _ _, ?_⟩
  cases (m.files.ensureDirectory p).2 with
  | error fault => exact noRefusal_error id
  | ok _ => exact noRefusal_ok ()

/-- The canonical path of something that is there. -/
structure IsCanonical (fs : FileSystem) (p : Path) (place : Location) : Prop where
  path : p = .ofLocation place
  direct : fs.Direct place
  stands : ∃ node, fs.node? place = some node ∧ ∀ target, node ≠ .link target

theorem IsCanonical.of_extends {fs fs' : FileSystem} {place : Location}
    (h : IsCanonical fs p place) (he : fs.Extends fs') : IsCanonical fs' p place := by
  obtain ⟨node, hn, hl⟩ := h.stands
  exact ⟨h.path, h.direct.of_directories fun _ hd => he.node hd, node, he.node hn, hl⟩

theorem ensureCanonicalDirectory_ends {r : Except Failure Path}
    (h : (ensureCanonicalDirectory p).Ends m r m') :
    m.Alike m' ∧ m.files.MakesDirectories p m'.files ∧ NoRefusal r ∧
      ∀ q, r = .ok q →
        m'.files.canonicalize p = .ok q ∧ ∃ place, IsCanonical m'.files q place := by
  rw [ensureCanonicalDirectory, Attempt.ends_bind] at h
  rcases h with ⟨e, h, rfl⟩ | ⟨_, m₁, h, h'⟩
  · obtain ⟨ha, hm, he⟩ := ensureDirectory_ends h
    exact ⟨ha, hm, he.of_error, by simp⟩
  · obtain ⟨ha, hm, -⟩ := ensureDirectory_ends h
    simp only [Attempt.ends_liftM_bind, Machine.ends_getFiles] at h'
    obtain ⟨_, _, ⟨rfl, rfl⟩, h'⟩ := h'
    split at h'
    · next directory hc =>
      obtain ⟨rfl, rfl⟩ := Attempt.ends_pure.1 h'
      refine ⟨ha, hm, noRefusal_ok _, fun q hq => ?_⟩
      obtain rfl := Except.ok.inj hq
      have hcanonical : m'.files.canonicalize p = .ok directory := mapError_eq_ok_iff.1 hc
      obtain ⟨place, node, hp, hd, hn, hl⟩ := FileSystem.direct_of_canonicalize hcanonical
      exact ⟨hcanonical, place, hp, hd, node, hn, hl⟩
    · next fault _ =>
      obtain ⟨rfl, rfl⟩ := Attempt.ends_throw.1 h'
      exact ⟨ha, hm, noRefusal_error id, by simp⟩

theorem ensureDirectory_of_isDirectory (h : m.files.isDirectory p = true) :
    (ensureDirectory p).Ends m (.ok ()) m := by
  rw [ensureDirectory, Attempt.ends_mk, Run.ends_bind]
  refine ⟨.ok (), m, Machine.ends_changePartly.2 ?_, Run.ends_pure.2 ⟨rfl, rfl⟩⟩
  rw [FileSystem.ensureDirectory_of_isDirectory h]
  exact ⟨rfl, rfl⟩

/-- A directory that is there has the canonical path under which it is looked for. -/
theorem ensureCanonicalDirectory_of_directory {place : Location} (h : m.files.IsDirectoryAt place)
    (hp : FileSystem.IsWalkable (.ofLocation place)) :
    (ensureCanonicalDirectory (.ofLocation place)).Ends m (.ok (.ofLocation place)) m := by
  have hensure := ensureDirectory_of_isDirectory (FileSystem.isDirectory_of_directory h hp)
  have hcanonical : m.files.canonicalDirectory (.ofLocation place) = .ok (.ofLocation place) :=
    mapError_eq_ok_iff.2 (FileSystem.canonicalize_of_direct h.direct h.node (by simp) hp)
  rw [ensureCanonicalDirectory, Attempt.ends_bind]
  refine .inr ⟨(), m, hensure, ?_⟩
  rw [Attempt.ends_liftM_bind]
  refine ⟨m.files, m, Machine.ends_getFiles.2 ⟨rfl, rfl⟩, ?_⟩
  rw [hcanonical]
  exact Attempt.ends_pure.2 ⟨rfl, rfl⟩

/-- A workspace whose directories are there is opened. -/
theorem openAt_of_directory {place : Location} {debugDirectory : Option Path}
    (h : m.files.IsDirectoryAt place) (hp : FileSystem.IsWalkable (.ofLocation place))
    (hd : ∀ debug ∈ debugDirectory, m.files.isDirectory debug = true) :
    (openAt (.ofLocation place) debugDirectory).Ends m (.ok ⟨.ofLocation place, debugDirectory⟩) m := by
  refine Attempt.ends_bind.2 (.inr ⟨_, m, ensureCanonicalDirectory_of_directory h hp, ?_⟩)
  cases debugDirectory with
  | none => exact Attempt.ends_pure.2 ⟨rfl, rfl⟩
  | some debug =>
    exact Attempt.ends_bind.2 (.inr ⟨(), m, ensureDirectory_of_isDirectory (hd debug rfl),
      Attempt.ends_pure.2 ⟨rfl, rfl⟩⟩)

/-- What comes when a workspace is opened. -/
structure Opens (s : Settings) (fs fs' : FileSystem) : Prop where
  kept : fs.Extends fs'
  isTree : fs.IsTree → fs'.IsTree
  made : ∀ {place node}, fs.node? place = none → fs'.node? place = some node →
    node = .directory ∧ ∃ p ∈ s.scratchDirectories, ∃ front, Path.Front front p ∧
      fs'.locateName front = .ok (.taken place)

theorem Opens.refl (s : Settings) (fs : FileSystem) : Opens s fs fs :=
  ⟨.refl fs, id, fun hn hs => by simp [hn] at hs⟩

theorem Opens.makes {fs fs₁ fs' : FileSystem} (h : Opens s fs fs₁) (hp : p ∈ s.scratchDirectories)
    (hm : fs₁.MakesDirectories p fs') : Opens s fs fs' := by
  refine ⟨h.kept.trans hm.kept, fun ht => hm.isTree (h.isTree ht), fun {place node} hn hs => ?_⟩
  cases hmid : fs₁.node? place with
  | none =>
    obtain ⟨hd, front, hf, hl⟩ := hm.made hmid hs
    exact ⟨hd, p, hp, front, hf, hl⟩
  | some found =>
    obtain ⟨rfl, q, hq, front, hf, hl⟩ := h.made hn hmid
    have hkept := hm.kept.node hmid
    obtain rfl : .directory = node := by simpa [hkept] using hs
    exact ⟨rfl, q, hq, front, hf, FileSystem.locate_of_extends hm.kept hl (.inl ⟨place, rfl⟩)⟩

/-- The workspace of some settings. -/
structure IsWorkspace (s : Settings) (fs : FileSystem) (w : Workspace) : Prop where
  debugDirectory : w.debugDirectory = if s.debug then some s.debugDirectory else none
  leads : fs.canonicalize s.workingDirectory = .ok w.directory
  canonical : ∃ place, IsCanonical fs w.directory place

theorem openAt_none_ends {w : Workspace} (h : (openAt p none).Ends m (.ok w) m') :
    m.Alike m' ∧ (m.files.IsTree → m'.files.IsTree) ∧ w.debugDirectory = none ∧
      ∃ place, IsCanonical m'.files w.directory place := by
  rcases Attempt.ends_bind.1 h with ⟨e, -, he⟩ | ⟨directory, m₁, hdirectory, h⟩
  · cases he
  · obtain ⟨ha, hm, -, hc⟩ := ensureCanonicalDirectory_ends hdirectory
    obtain ⟨hw, rfl⟩ := Attempt.ends_pure.1 h
    obtain rfl := Except.ok.inj hw
    exact ⟨ha, hm.isTree, rfl, (hc _ rfl).2⟩

theorem ofSettings_ends {r : Except Failure Workspace} (h : (ofSettings s).Ends m r m') :
    m.Alike m' ∧ Opens s m.files m'.files ∧ NoRefusal r ∧
      ∀ w, r = .ok w → IsWorkspace s m'.files w := by
  rw [ofSettings, openAt, Attempt.ends_bind] at h
  have hworking : s.workingDirectory ∈ s.scratchDirectories := by simp [Settings.scratchDirectories]
  rcases h with ⟨e, h, rfl⟩ | ⟨directory, m₁, h, h'⟩
  · obtain ⟨ha, hm, he, -⟩ := ensureCanonicalDirectory_ends h
    exact ⟨ha, (Opens.refl s _).makes hworking hm, he.of_error, by simp⟩
  · obtain ⟨ha, hm, -, hc⟩ := ensureCanonicalDirectory_ends h
    have hopens := (Opens.refl s _).makes hworking hm
    obtain ⟨hleads, place, hplace⟩ := hc _ rfl
    cases hd : s.debug with
    | false =>
      simp only [hd] at h'
      obtain ⟨rfl, rfl⟩ := Attempt.ends_pure.1 h'
      refine ⟨ha, hopens, noRefusal_ok _, fun w hw => ?_⟩
      obtain rfl := Except.ok.inj hw
      exact ⟨by simp [hd], hleads, place, hplace⟩
    | true =>
      simp only [hd, if_true, Attempt.ends_bind] at h'
      have hdebug : s.debugDirectory ∈ s.scratchDirectories := by simp [Settings.scratchDirectories, hd]
      rcases h' with ⟨e, h', rfl⟩ | ⟨_, m₂, h', h''⟩
      · obtain ⟨ha', hm', he⟩ := ensureDirectory_ends h'
        exact ⟨ha.trans ha', hopens.makes hdebug hm', he.of_error, by simp⟩
      · obtain ⟨ha', hm', -⟩ := ensureDirectory_ends h'
        obtain ⟨rfl, rfl⟩ := Attempt.ends_pure.1 h''
        refine ⟨ha.trans ha', hopens.makes hdebug hm', noRefusal_ok _, fun w hw => ?_⟩
        obtain rfl := Except.ok.inj hw
        exact ⟨by simp [hd], FileSystem.canonicalize_of_extends hm'.kept hleads, place,
          hplace.of_extends hm'.kept⟩

/-- A directory that cannot be made is reported. -/
theorem ensureDirectory_failure {e : Failure} (h : (ensureDirectory p).Ends m (.error e) m') :
    ∃ reason, e = .workspace p reason := by
  simp only [ensureDirectory, Attempt.ends_mk, Run.ends_bind, Machine.ends_changePartly,
    Run.ends_pure] at h
  obtain ⟨made, _, -, he, -⟩ := h
  cases made with
  | error fault => exact ⟨fault.message, Except.error.inj he⟩
  | ok _ => cases he

theorem ensureCanonicalDirectory_failure {e : Failure}
    (h : (ensureCanonicalDirectory p).Ends m (.error e) m') : ∃ reason, e = .workspace p reason := by
  rw [ensureCanonicalDirectory, Attempt.ends_bind] at h
  rcases h with ⟨e', h, he⟩ | ⟨_, m₁, -, h⟩
  · exact Except.error.inj he ▸ ensureDirectory_failure h
  · simp only [Attempt.ends_liftM_bind] at h
    obtain ⟨_, _, -, h⟩ := h
    split at h
    · cases (Attempt.ends_pure.1 h).1
    · next fault _ => exact ⟨fault.message, Except.error.inj (Attempt.ends_throw.1 h).1⟩

theorem ofSettings_failure {e : Failure} (h : (ofSettings s).Ends m (.error e) m') :
    ∃ q reason, e = .workspace q reason := by
  rw [ofSettings, openAt, Attempt.ends_bind] at h
  rcases h with ⟨e', h, he⟩ | ⟨directory, m₁, -, h⟩
  · exact ⟨_, Except.error.inj he ▸ ensureCanonicalDirectory_failure h⟩
  · cases hd : s.debug with
    | false =>
      simp only [hd] at h
      cases (Attempt.ends_pure.1 h).1
    | true =>
      simp only [hd, if_true, Attempt.ends_bind] at h
      rcases h with ⟨e', h, he⟩ | ⟨_, m₂, -, h⟩
      · exact ⟨_, Except.error.inj he ▸ ensureDirectory_failure h⟩
      · cases (Attempt.ends_pure.1 h).1

/-! ## Jobs -/

/-- A job was opened: a directory was made for it where nothing stood. -/
structure OpensJob (w : Workspace) (fs : FileSystem) (job : Job) (place : Location)
    (fs' : FileSystem) : Prop where
  workspace : job.workspace = w
  directory : job.directory = .ofLocation place
  input : job.input = none
  dependencies : job.dependencies = []
  puts : fs.PutsDirectory place fs'
  directoryAt : fs'.IsDirectoryAt place
  named : ∃ directory name, place = directory ++ [jobStart ++ name]
  reached : ∃ found, fs.locate job.directory false = .ok found

/-- The random names can stand in a path. -/
def NamesFit (m : Machine) : Prop := ∀ n, '/' ∉ (m.names n).toList

theorem isName_job {name : String} (h : '/' ∉ name.toList) : Path.IsName (jobStart ++ name) := by
  have hstart : (jobStart ++ name).toList = ['t', 'y', 'p', 's', 't', '_'] ++ name.toList := by
    simp [jobStart]
  refine ⟨by simp [hstart, h], by simp [hstart, Path.isIdle], by simp [hstart]⟩

/-- A directory made under a name in a canonical directory. -/
theorem puts_of_makeDirectory_join {fs fs' : FileSystem} {place : Location} {name : String}
    (hc : IsCanonical fs p place) (hn : Path.IsName name)
    (h : fs.makeDirectory (p.join name) = .ok fs') :
    p.join name = .ofLocation (place ++ [name]) ∧ fs.PutsDirectory (place ++ [name]) fs' ∧
      fs'.IsDirectoryAt (place ++ [name]) ∧ ∃ found, fs.locate (p.join name) false = .ok found := by
  obtain ⟨node, hnode, hlink⟩ := hc.stands
  rw [hc.path, Path.join_ofLocation hc.direct.isName hn] at h ⊢
  obtain ⟨found, hl, -⟩ := FileSystem.puts_of_makeDirectory h
  rw [FileSystem.locateName_child hn] at hl
  have hd := FileSystem.directory_of_locate_child hc.direct hnode hlink hn hl
  exact ⟨rfl, FileSystem.puts_of_makeDirectory_child hd hn h,
    FileSystem.directoryAt_of_makeDirectory hd hn h, found, hl⟩

theorem makeJobDirectory_ends {w : Workspace} {place : Location} {tries : Nat}
    {r : Except String Path} (hc : IsCanonical m.files w.directory place) (hn : NamesFit m)
    (h : Run.Ends (w.makeJobDirectory tries) m r m') :
    m.Alike m' ∧ (∀ e, r = .error e → m'.files = m.files) ∧
      ∀ p, r = .ok p → ∃ name, p = .ofLocation (place ++ [jobStart ++ name]) ∧
        m.files.PutsDirectory (place ++ [jobStart ++ name]) m'.files ∧
        m'.files.IsDirectoryAt (place ++ [jobStart ++ name]) ∧
        ∃ found, m.files.locate p false = .ok found := by
  induction tries generalizing m with
  | zero =>
    obtain ⟨rfl, rfl⟩ := Run.ends_pure.1 h
    exact ⟨.refl _, fun _ _ => rfl, by simp⟩
  | succ tries ih =>
    simp only [makeJobDirectory, Run.ends_bind, Machine.ends_drawName] at h
    obtain ⟨_, _, ⟨rfl, rfl⟩, made, m₁, hchange, h⟩ := h
    rcases Machine.ends_change.1 hchange with ⟨fs, hmake, rfl, rfl⟩ | ⟨e, hmake, rfl, rfl⟩
    · obtain ⟨rfl, rfl⟩ := Run.ends_pure.1 h
      refine ⟨⟨rfl, rfl, rfl, rfl⟩, by simp, fun p hp => ⟨m.names m.drawn, ?_⟩⟩
      obtain rfl := Except.ok.inj hp
      exact puts_of_makeDirectory_join hc (isName_job (hn _)) hmake
    · have hdrawn : m.Alike { m with drawn := m.drawn + 1 } := ⟨rfl, rfl, rfl, rfl⟩
      split at h
      · next he => cases he
      · obtain ⟨ha, hfails, hmakes⟩ := ih (m := { m with drawn := m.drawn + 1 }) hc hn h
        exact ⟨hdrawn.trans ha, hfails, hmakes⟩
      · obtain ⟨rfl, rfl⟩ := Run.ends_pure.1 h
        exact ⟨hdrawn, fun _ _ => rfl, by simp⟩

theorem begin_ends {w : Workspace} {place : Location} {r : Except Failure Job}
    (hc : IsCanonical m.files w.directory place) (hn : NamesFit m) (h : w.begin.Ends m r m') :
    m.Alike m' ∧ NoRefusal r ∧ (∀ e, r = .error e → m'.files = m.files) ∧
      ∀ job, r = .ok job → ∃ name, OpensJob w m.files job (place ++ [jobStart ++ name]) m'.files := by
  simp only [begin, Attempt.ends_liftM_bind] at h
  obtain ⟨made, m₁, hmake, h⟩ := h
  obtain ⟨ha, hfails, hmakes⟩ := makeJobDirectory_ends hc hn hmake
  split at h
  · next directory =>
    simp only [Attempt.ends_liftM_bind, Machine.ends_report, Attempt.ends_pure] at h
    obtain ⟨_, _, rfl, rfl, rfl⟩ := h
    refine ⟨ha.trans ⟨rfl, rfl, rfl, rfl⟩, noRefusal_ok _, by simp, fun job hj => ?_⟩
    obtain rfl := Except.ok.inj hj
    obtain ⟨name, rfl, hputs, hat, hreached⟩ := hmakes _ rfl
    exact ⟨name, rfl, rfl, rfl, rfl, hputs, hat, ⟨_, name, rfl⟩, hreached⟩
  · next reason =>
    obtain ⟨rfl, rfl⟩ := Attempt.ends_throw.1 h
    exact ⟨ha, noRefusal_error id, fun _ _ => hfails _ rfl, by simp⟩

/-- A job is opened under the name that is drawn when that is free. -/
theorem begin_of_free {w : Workspace} {place : Location} {name : String}
    (hat : m.files.IsDirectoryAt place) (hw : w.directory = .ofLocation place)
    (hdraw : jobStart ++ m.names m.drawn = name) (hn : Path.IsName name)
    (hs : Text.utf8Size name.toList ≤ FileSystem.nameLimit)
    (hp : FileSystem.IsWalkable (.ofLocation (place ++ [name])))
    (hfree : m.files.node? (place ++ [name]) = none) :
    w.begin.Ends m (.ok { workspace := w, directory := .ofLocation (place ++ [name]) }) { m with
      files := m.files.set (place ++ [name]) .directory
      drawn := m.drawn + 1
      journal := m.journal ++ [.jobOpened (Path.ofLocation (place ++ [name])).text] } := by
  have hpath : w.directory.join (jobStart ++ m.names m.drawn) = .ofLocation (place ++ [name]) := by
    rw [hdraw, hw, Path.join_ofLocation hat.direct.isName hn]
  have hmake : Run.Ends (w.makeJobDirectory jobTries) m (.ok (.ofLocation (place ++ [name]))) { m with
      files := m.files.set (place ++ [name]) .directory
      drawn := m.drawn + 1 } := by
    obtain ⟨tries, htries⟩ : ∃ tries, jobTries = tries + 1 := ⟨65535, rfl⟩
    rw [htries, makeJobDirectory, Run.ends_bind]
    refine ⟨_, _, Machine.ends_drawName.2 ⟨rfl, rfl⟩, ?_⟩
    rw [hpath, Run.ends_bind]
    have hmade := FileSystem.makeDirectory_child_of_free hat hn hs hp hfree
    exact ⟨.ok (), _, Machine.ends_change.2 (.inl ⟨_, hmade, rfl, rfl⟩), Run.ends_pure.2 ⟨rfl, rfl⟩⟩
  rw [begin, Attempt.ends_liftM_bind]
  refine ⟨_, _, hmake, ?_⟩
  rw [Attempt.ends_liftM_bind]
  exact ⟨(), _, Machine.ends_report.2 rfl, Attempt.ends_pure.2 ⟨rfl, rfl⟩⟩

end Workspace

end Galley
