import Galley.Proofs.FileSystem.Ensured
import Galley.Proofs.Service.CompilerView
import Galley.Proofs.Settings.Layers

/-! # Updates whose workspace cannot be opened

The settings of an update stay whether or not their workspace can be opened. When it cannot, no compilation
opens it from the files that were left, so none calls the compiler until the files or the settings change. -/

namespace Galley

namespace Attempt

variable {α β : Type} {attempt : Attempt α} {next : α → Attempt β} {run : Run α} {fs : FileSystem}

/-- From these files, an attempt fails with the files left as they are and nothing performed. -/
def FailsOn (attempt : Attempt α) (fs : FileSystem) : Prop :=
  ∀ (m m' : Machine) (r : Except Failure α), m.files = fs → attempt.Ends m r m' →
    (∃ e, r = .error e) ∧ m'.files = fs ∧ m'.performed = m.performed

/-- From these files, an attempt ends with the files left as they are and nothing performed. -/
def KeepsOn (attempt : Attempt α) (fs : FileSystem) : Prop :=
  ∀ (m m' : Machine) (r : Except Failure α), m.files = fs → attempt.Ends m r m' →
    m'.files = fs ∧ m'.performed = m.performed

theorem FailsOn.bind (h : attempt.FailsOn fs) : (attempt >>= next).FailsOn fs := by
  intro m m' r hf hends
  rcases ends_bind.1 hends with ⟨e, hfirst, rfl⟩ | ⟨a, m₁, hfirst, -⟩
  · exact ⟨⟨e, rfl⟩, (h _ _ _ hf hfirst).2⟩
  · obtain ⟨⟨e, he⟩, -⟩ := h _ _ _ hf hfirst
    cases he

theorem KeepsOn.bind (h : attempt.KeepsOn fs) (hnext : ∀ a, (next a).KeepsOn fs) :
    (attempt >>= next).KeepsOn fs := by
  intro m m' r hf hends
  rcases ends_bind.1 hends with ⟨e, hfirst, -⟩ | ⟨a, m₁, hfirst, hrest⟩
  · exact h _ _ _ hf hfirst
  · obtain ⟨hfiles, hperformed⟩ := h _ _ _ hf hfirst
    obtain ⟨hfiles', hperformed'⟩ := hnext a _ _ _ hfiles hrest
    exact ⟨hfiles', hperformed'.trans hperformed⟩

theorem KeepsOn.bind_fails (h : attempt.KeepsOn fs) (hnext : ∀ a, (next a).FailsOn fs) :
    (attempt >>= next).FailsOn fs := by
  intro m m' r hf hends
  rcases ends_bind.1 hends with ⟨e, hfirst, rfl⟩ | ⟨a, m₁, hfirst, hrest⟩
  · exact ⟨⟨e, rfl⟩, h _ _ _ hf hfirst⟩
  · obtain ⟨hfiles, hperformed⟩ := h _ _ _ hf hfirst
    obtain ⟨he, hfiles', hperformed'⟩ := hnext a _ _ _ hfiles hrest
    exact ⟨he, hfiles', hperformed'.trans hperformed⟩

theorem failsOn_throw (e : Failure) (fs : FileSystem) : (throw e : Attempt α).FailsOn fs := by
  intro m m' r hf hends
  obtain ⟨rfl, rfl⟩ := ends_throw.1 hends
  exact ⟨⟨e, rfl⟩, hf, rfl⟩

end Attempt

namespace FileSystem

variable {fs : FileSystem} {p q : Path}

theorem canonicalize_of_isDirectory (h : fs.isDirectory p = true) : ∃ q, fs.canonicalDirectory p = .ok q := by
  obtain ⟨place, hf, -⟩ := status_eq_ok_iff.1 (isDirectory_iff.1 h)
  exact ⟨.ofLocation place, by rw [canonicalDirectory, canonicalize, hf]; rfl⟩

/-- Where something stands, no directory is made. -/
theorem ensureDirectory_of_canonicalize (h : fs.canonicalize p = .ok q) : (fs.ensureDirectory p).1 = fs := by
  cases hf : fs.find p with
  | error e =>
    rw [canonicalize, hf] at h
    cases h
  | ok place =>
    obtain ⟨-, node, hn, -⟩ := direct_of_find hf
    have hexists : fs.pathExists p = true := by
      rw [pathExists, status_eq_ok_iff.2 ⟨place, hf, hn⟩]
      rfl
    rw [ensureDirectory, if_neg (by simp [hexists])]

/-- The canonical path of a directory, after it was made when it was not there. -/
def ensuredPath (fs : FileSystem) (p : Path) : Except PathFault Path :=
  (fs.ensureDirectory p).2.bind fun _ => (fs.ensureDirectory p).1.canonicalDirectory p

/-- A canonical path that could not be had cannot be had from what was left, and nothing more is made. -/
theorem ensuredPath_refused_again {fault : PathFault} (h : fs.ensuredPath p = .error fault) :
    let fs' := (fs.ensureDirectory p).1
    fs'.isDirectory p = false ∧ (fs'.ensureDirectory p).1 = fs' ∧ ∃ fault', fs'.ensuredPath p = .error fault' := by
  intro fs'
  rw [ensuredPath] at h
  cases hr : (fs.ensureDirectory p).2 with
  | error fault₁ =>
    have hrefused : fs.ensureDirectory p = (fs', .error fault₁) := Prod.ext rfl hr
    obtain ⟨hmissing, fault', hagain⟩ := ensureDirectory_refused_again hrefused
    exact ⟨hmissing, by rw [hagain], fault', by rw [ensuredPath, hagain]; rfl⟩
  | ok _ =>
    rw [hr] at h
    have hcanonical : fs'.canonicalDirectory p = .error fault := h
    have hkept : (fs'.ensureDirectory p).1 = fs' := ensureDirectory_made_again (Prod.ext rfl hr)
    refine ⟨?_, hkept, ?_⟩
    · rw [Bool.eq_false_iff]
      intro hd
      obtain ⟨q, hq⟩ := canonicalize_of_isDirectory hd
      cases hcanonical.symm.trans hq
    · rw [ensuredPath, hkept, hcanonical]
      cases (fs'.ensureDirectory p).2 with
      | error fault' => exact ⟨fault', rfl⟩
      | ok _ => exact ⟨fault, rfl⟩

end FileSystem

open Attempt (FailsOn KeepsOn)

namespace Workspace

variable {m m' : Machine} {s : Settings} {p : Path} {fs : FileSystem}

/-- The failure that names a directory. -/
def failure (p : Path) (fault : PathFault) : Failure := .workspace p fault.message

theorem ensureDirectory_ends_iff {r : Except Failure Unit} :
    (ensureDirectory p).Ends m r m' ↔ r = (m.files.ensureDirectory p).2.mapError (failure p) ∧
      m' = { m with files := (m.files.ensureDirectory p).1 } := by
  simp only [ensureDirectory, Attempt.ends_mk, Run.ends_bind, Machine.ends_changePartly, Run.ends_pure]
  constructor
  · rintro ⟨made, m₁, ⟨rfl, rfl⟩, rfl, rfl⟩
    exact ⟨rfl, rfl⟩
  · rintro ⟨rfl, rfl⟩
    exact ⟨_, _, ⟨rfl, rfl⟩, rfl, rfl⟩

theorem ensureCanonicalDirectory_ends_iff {r : Except Failure Path} :
    (ensureCanonicalDirectory p).Ends m r m' ↔ r = (m.files.ensuredPath p).mapError (failure p) ∧
      m' = { m with files := (m.files.ensureDirectory p).1 } := by
  rw [ensureCanonicalDirectory, Attempt.ends_bind, FileSystem.ensuredPath]
  simp only [ensureDirectory_ends_iff, Attempt.ends_liftM_bind, Machine.ends_getFiles]
  cases (m.files.ensureDirectory p).2 with
  | error fault => simp [Except.mapError, Except.bind, and_comm]
  | ok _ =>
    cases hc : (m.files.ensureDirectory p).1.canonicalDirectory p with
    | error fault => simp [Except.mapError, Except.bind, hc, failure]
    | ok directory => simp [Except.mapError, Except.bind, hc]

theorem failsOn_ensureDirectory {fault : PathFault} (h : fs.ensureDirectory p = (fs, .error fault)) :
    (ensureDirectory p).FailsOn fs := by
  intro m m' r hf hends
  obtain ⟨rfl, rfl⟩ := ensureDirectory_ends_iff.1 hends
  subst hf
  rw [h]
  exact ⟨⟨_, rfl⟩, rfl, rfl⟩

theorem keepsOn_ensureCanonicalDirectory (h : (fs.ensureDirectory p).1 = fs) :
    (ensureCanonicalDirectory p).KeepsOn fs := by
  intro m m' r hf hends
  obtain ⟨-, rfl⟩ := ensureCanonicalDirectory_ends_iff.1 hends
  subst hf
  exact ⟨h, rfl⟩

theorem failsOn_ensureCanonicalDirectory {fault : PathFault} (h : (fs.ensureDirectory p).1 = fs)
    (hr : fs.ensuredPath p = .error fault) : (ensureCanonicalDirectory p).FailsOn fs := by
  intro m m' r hf hends
  refine ⟨?_, keepsOn_ensureCanonicalDirectory h _ _ _ hf hends⟩
  obtain ⟨rfl, -⟩ := ensureCanonicalDirectory_ends_iff.1 hends
  rw [hf, hr]
  exact ⟨_, rfl⟩

theorem eq_error_of_mapError {ε ε' α : Type} {x : Except ε α} {f : ε → ε'} {e : ε'}
    (h : .error e = x.mapError f) : ∃ e', x = .error e' ∧ e = f e' := by
  cases x with
  | error e' => exact ⟨e', rfl, Except.error.inj h⟩
  | ok a => cases h

/-- A workspace that could not be opened has a directory that is not there, and it cannot be opened from what was
left. -/
theorem ofSettings_refused {e : Failure} (h : (ofSettings s).Ends m (.error e) m') :
    (∃ p ∈ s.scratchDirectories, m'.files.isDirectory p = false ∧ ∃ reason, e = .workspace p reason) ∧
      (ofSettings s).FailsOn m'.files := by
  rw [ofSettings, openAt, Attempt.ends_bind] at h
  rw [ofSettings, openAt]
  rcases h with ⟨e', h, he⟩ | ⟨directory, m₁, h, h'⟩
  · obtain rfl := Except.error.inj he
    obtain ⟨hfault, rfl⟩ := ensureCanonicalDirectory_ends_iff.1 h
    obtain ⟨fault, hr, rfl⟩ := eq_error_of_mapError hfault
    obtain ⟨hmissing, hkept, fault', hagain⟩ := FileSystem.ensuredPath_refused_again hr
    exact ⟨⟨s.workingDirectory, by simp [Settings.scratchDirectories], hmissing, _, rfl⟩,
      (failsOn_ensureCanonicalDirectory hkept hagain).bind⟩
  · cases hd : s.debug with
    | false =>
      simp only [hd] at h'
      cases (Attempt.ends_pure.1 h').1
    | true =>
      simp only [hd, if_true] at h' ⊢
      rcases Attempt.ends_bind.1 h' with ⟨e', hdebug, he⟩ | ⟨_, m₂, -, h'⟩
      · obtain rfl := Except.error.inj he
        have hcanonical := ((ensureCanonicalDirectory_ends h).2.2.2 _ rfl).1
        have hextends := (ensureDirectory_ends hdebug).2.1.kept
        obtain ⟨hfault, rfl⟩ := ensureDirectory_ends_iff.1 hdebug
        obtain ⟨fault, hr, rfl⟩ := eq_error_of_mapError hfault
        obtain ⟨hmissing, fault', hagain⟩ := FileSystem.ensureDirectory_refused_again (Prod.ext rfl hr)
        refine ⟨⟨s.debugDirectory, by simp [Settings.scratchDirectories, hd], hmissing, _, rfl⟩, ?_⟩
        have hkept := FileSystem.ensureDirectory_of_canonicalize
          (FileSystem.canonicalize_of_extends hextends hcanonical)
        exact (keepsOn_ensureCanonicalDirectory hkept).bind_fails fun _ => (failsOn_ensureDirectory hagain).bind
      · cases (Attempt.ends_pure.1 h').1

end Workspace

namespace Service

open Workspace (ofSettings)

variable {m m' : Machine} {s : Settings} {service service' : Service} {u : Settings.Update} {fs : FileSystem}

theorem preprocess_keepsOn (source : String) (bindings : Record) (directory : Option Path) :
    (preprocess s source bindings directory).KeepsOn fs := by
  intro m m' r hf hends
  obtain ⟨-, ha, hfiles⟩ := preprocess_ends hends
  exact ⟨hfiles.trans hf, ha.performed⟩

/-- Where the workspace is not opened, no source is compiled. -/
theorem compileSource_failsOn (h : (ofSettings s).FailsOn fs) (source : String) (bindings : Record)
    (directory output : Option Path) (o : Options) :
    (compileSource s source bindings directory output o).FailsOn fs := by
  have hopen : (openJob s source bindings directory).FailsOn fs :=
    (preprocess_keepsOn source bindings directory).bind_fails fun _ => h.bind
  have hjob : (compileJob s source bindings directory output o).FailsOn fs := hopen.bind
  exact hjob.bind

theorem compileFile_failsOn (h : (ofSettings service.settings).FailsOn fs) (input : Path)
    (output : Option Path) (bindings : Record) (o : Options) :
    (compileFile service input output bindings o).FailsOn fs := by
  intro m m' r hf hends
  simp only [compileFile, Attempt.ends_liftM_bind, Machine.ends_getFiles] at hends
  obtain ⟨_, m₀, ⟨rfl, rfl⟩, hends⟩ := hends
  split at hends
  · exact Attempt.failsOn_throw _ fs _ _ _ hf hends
  split at hends
  · exact Attempt.failsOn_throw _ fs _ _ _ hf hends
  split at hends
  · exact Attempt.failsOn_throw _ fs _ _ _ hf hends
  simp only [Attempt.ends_lift_bind, Machine.ends_absorb] at hends
  obtain ⟨format, m₁, ⟨-, rfl⟩, hends⟩ := hends
  exact compileSource_failsOn h _ _ _ _ _ { m₀ with journal := m₀.journal ++ _ } _ _ hf hends

theorem run_failsOn (h : (ofSettings service.settings).FailsOn fs) (c : Compilation) :
    (c.run service).FailsOn fs := by
  cases c with
  | toFile source bindings o => exact (compileSource_failsOn h source bindings _ _ o).bind
  | toBytes source bindings o =>
    have hbytes : (compileToBytes service source bindings o).FailsOn fs :=
      (compileSource_failsOn h source bindings _ _ o).bind
    exact hbytes.bind
  | fileToFile input output bindings o => exact (compileFile_failsOn h input output bindings o).bind

theorem update_ends {r : Except Failure Unit} (h : Run.Ends (service.update u) m (service', r) m') :
    service'.settings = service.settings.apply m.environment u ∧
      ∃ m₁ opened, m₁.files = m.files ∧ (ofSettings service'.settings).Ends m₁ opened m' ∧
        r = opened.map fun _ => () := by
  simp only [update, Run.ends_bind, Run.ends_get, Machine.ends_absorb, Run.ends_run, Run.ends_pure] at h
  obtain ⟨_, m₀, ⟨rfl, rfl⟩, settings, m₁, ⟨rfl, hm₁⟩, opened, m₂, hopened, hr, rfl⟩ := h
  obtain ⟨rfl, rfl⟩ := Prod.mk.inj hr
  exact ⟨rfl, m₁, opened, by rw [hm₁], hopened, rfl⟩

/-- After an update the settings are those that it makes of the old ones, also when it fails; then they are the old
ones only if it changes none. It fails because of a directory of the new settings that is not there afterwards,
and from the files that were left no compilation under the new settings does anything. -/
theorem settings_after_update {r : Except Failure Unit}
    (h : Run.Ends (service.update u) m (service', r) m') :
    service'.settings = service.settings.apply m.environment u ∧
      ∀ e, r = .error e →
        (service' = service ↔ service.settings.apply m.environment u = service.settings) ∧
        (∃ p ∈ service'.settings.scratchDirectories,
          m'.files.isDirectory p = false ∧ ∃ reason, e = .workspace p reason) ∧
        ∀ c : Compilation, (c.run service').FailsOn m'.files := by
  obtain ⟨hs, m₁, opened, -, hopened, rfl⟩ := update_ends h
  refine ⟨hs, fun e he => ?_⟩
  cases opened with
  | ok w => cases he
  | error e' =>
    obtain rfl := Except.error.inj he
    obtain ⟨hdirectory, hfails⟩ := Workspace.ofSettings_refused hopened
    refine ⟨?_, hdirectory, run_failsOn hfails⟩
    rw [← hs]
    exact ⟨congrArg settings, fun heq => by cases service; cases service'; exact congrArg Service.mk heq⟩

/-! ## A file where the scratch directory is to be -/

/-- An update that asks for a scratch directory where a file lies. -/
def blockedUpdate : Settings.Update := { workingDirectory := some "/t/a.typ" }

theorem workingDirectory_blockedUpdate (env : Environment) :
    (selfImportService.settings.apply env blockedUpdate).workingDirectory = ⟨"/t/a.typ"⟩ :=
  Settings.expand_of_plain (by decide) (by decide)

theorem ensureDirectory_blocked : Dependency.selfImporting.files.ensureDirectory ⟨"/t/a.typ"⟩ =
    (Dependency.selfImporting.files, .error (.blocked ⟨"/t/a.typ"⟩)) := by
  have hexists : Dependency.selfImporting.files.pathExists ⟨"/t/a.typ"⟩ = true := by
    rw [FileSystem.pathExists, Dependency.status_selfImporting]
    rfl
  have hdirectory : Dependency.selfImporting.files.isDirectory ⟨"/t/a.typ"⟩ = false := by
    rw [FileSystem.isDirectory, Dependency.status_selfImporting]
  rw [FileSystem.ensureDirectory, if_neg (by simp [hexists]), hdirectory]
  rfl

theorem ensuredPath_blocked : Dependency.selfImporting.files.ensuredPath ⟨"/t/a.typ"⟩ =
    .error (.blocked ⟨"/t/a.typ"⟩) := by
  rw [FileSystem.ensuredPath, ensureDirectory_blocked]
  rfl

/-- Under the old settings the text that imports itself reaches the compiler. An update that is refused has put
others in their place, under which the same call fails from the same files. -/
theorem settings_after_update_blocked :
    ∃ service' e m', Run.Ends (selfImportService.update blockedUpdate) selfImportMachine
        (service', .error e) m' ∧
      (∀ r m₁, (selfImportCall.run selfImportService).Ends selfImportMachine r m₁ → m₁.performed ≠ []) ∧
      service' ≠ selfImportService ∧ m'.files = selfImportMachine.files ∧
      (selfImportCall.run service').FailsOn m'.files := by
  obtain ⟨⟨service', r⟩, m', h⟩ := (selfImportService.update blockedUpdate).exists_ends selfImportMachine
  obtain ⟨hsettings, m₁, opened, hfiles, hopened, rfl⟩ := update_ends h
  have hworking : service'.settings.workingDirectory = ⟨"/t/a.typ"⟩ := by
    rw [hsettings]
    exact workingDirectory_blockedUpdate _
  have hfs : m₁.files = Dependency.selfImporting.files := hfiles
  have hrefused : (Workspace.ensureCanonicalDirectory service'.settings.workingDirectory).FailsOn m₁.files := by
    rw [hworking, hfs]
    refine Workspace.failsOn_ensureCanonicalDirectory (by rw [ensureDirectory_blocked]) ensuredPath_blocked
  obtain ⟨⟨e, rfl⟩, hkept, -⟩ := (hrefused.bind : (ofSettings service'.settings).FailsOn _) _ _ _ rfl hopened
  obtain ⟨-, hall⟩ := settings_after_update h
  obtain ⟨-, -, hfails⟩ := hall e rfl
  refine ⟨service', e, m', h, fun r m₁ hcall => ?_, ?_, hkept.trans hfs, hfails selfImportCall⟩
  · obtain ⟨r', hsource⟩ := ends_of_discarded hcall
    exact performed_selfImport hsource
  · rintro rfl
    exact absurd hworking (by decide)

end Service

end Galley
