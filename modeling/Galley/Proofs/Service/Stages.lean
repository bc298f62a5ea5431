import Galley.Proofs.Dependency.Independence
import Galley.Proofs.Outcome
import Galley.Proofs.Service.Materialization
import Galley.Proofs.Workspace.Dropping

/-! # The stages of a compilation

A source is prepared, a job is opened, the resolution is written into it, and the compiler is called.
Each stage that ends in a failure ends the compilation up to the dropping of the job, and only the first
refuses a text. -/

namespace Galley.Service

open Workspace (Job OpensJob Opens IsWorkspace Writes Contains Drops NamesFit inputName isName_inputName)
open Dependency (Resolution)

variable {m m' : Machine} {s : Settings} {source : String} {bindings : Record}
  {directory : Option Path} {o : Options}

/-! ## Preparing -/

/-- What preparing a source comes to. -/
def prepared (s : Settings) (fs : FileSystem) (source : String) (bindings : Record)
    (directory : Option Path) : Except Failure Resolution :=
  (Template.render entrypointName source bindings).bind fun rendered =>
    outcome (Dependency.resolve ⟨fs, .ofSettings s, bindings⟩
      (Typst.DataImport.expand rendered bindings) directory)

theorem preprocess_ends {r : Except Failure Resolution}
    (h : (preprocess s source bindings directory).Ends m r m') :
    r = prepared s m.files source bindings directory ∧ m.Alike m' ∧ m'.files = m.files := by
  rw [preprocess, Attempt.ends_bind] at h
  simp only [Attempt.ends_absorb, Template.renderLogged] at h
  rcases h with ⟨e, ⟨he, rfl⟩, rfl⟩ | ⟨rendered, m₁, ⟨hr, rfl⟩, h⟩
  · rw [prepared, ← he]
    exact ⟨rfl, ⟨rfl, rfl, rfl, rfl⟩, rfl⟩
  · simp only [Attempt.ends_liftM_bind, Machine.ends_reportAll, Machine.ends_getFiles,
      Attempt.ends_absorb] at h
    obtain ⟨_, _, rfl, _, _, ⟨rfl, rfl⟩, rfl, rfl⟩ := h
    rw [prepared, ← hr]
    exact ⟨rfl, ⟨rfl, rfl, rfl, rfl⟩, rfl⟩

theorem resolve_of_prepared {fs : FileSystem} {r : Resolution}
    (h : prepared s fs source bindings directory = .ok r) :
    ∃ text, outcome (Dependency.resolve ⟨fs, .ofSettings s, bindings⟩ text directory) = .ok r := by
  rw [prepared] at h
  cases hr : Template.render entrypointName source bindings with
  | error e =>
    rw [hr] at h
    cases h
  | ok rendered =>
    rw [hr] at h
    exact ⟨_, h⟩

/-! ## Opening a job -/

/-- A job was opened for a source that was prepared. -/
structure OpensFor (s : Settings) (m : Machine) (w : Workspace) (job : Job) (place : Location)
    (m' : Machine) : Prop where
  opened : ∃ fs, Opens s m.files fs ∧ OpensJob w fs job place m'.files
  /-- Its directory lies in the canonical scratch directory. -/
  scratch : ∃ fs directory name, Opens s m.files fs ∧
    fs.canonicalize s.workingDirectory = .ok w.directory ∧ w.directory = .ofLocation directory ∧
    place = directory ++ [Workspace.jobStart ++ name]
  debugDirectory : w.debugDirectory = if s.debug then some s.debugDirectory else none

/-- How opening a job ends. -/
inductive Opening (s : Settings) (m : Machine) (prepared : Except Failure Resolution) :
    Except Failure (Resolution × Job) → Machine → Prop where
  | unprepared {e : Failure} {m' : Machine} : prepared = .error e → m'.files = m.files →
      Opening s m prepared (.error e) m'
  | failed {resolution : Resolution} {e : Failure} {m' : Machine} : prepared = .ok resolution →
      ¬e.IsRefusal → Opens s m.files m'.files → Opening s m prepared (.error e) m'
  | opened {resolution : Resolution} {w : Workspace} {job : Job} {place : Location} {m' : Machine} :
      prepared = .ok resolution → OpensFor s m w job place m' →
      Opening s m prepared (.ok (resolution, job)) m'

/-- A job that was opened for a source, and what its directory is called. -/
theorem OpensFor.holds {w : Workspace} {job : Job} {place : Location}
    (h : OpensFor s m w job place m') (ht : m.files.IsTree) :
    job.Holds w place m'.files ∧ Contains m'.files place [] ∧
      (∃ front name, place = front ++ [Workspace.jobStart ++ name]) ∧
      Path.IsName (inputName place) := by
  obtain ⟨fs, hopens, hjob⟩ := h.opened
  have htree := hopens.isTree ht
  obtain ⟨front, name, hp⟩ := hjob.named
  exact ⟨hjob.holds htree, hjob.contains htree, ⟨front, name, hp⟩,
    isName_inputName hp hjob.directoryAt.direct.isName⟩

theorem openJob_ends {r : Except Failure (Resolution × Job)} (hn : NamesFit m)
    (h : (openJob s source bindings directory).Ends m r m') :
    m.Alike m' ∧ Opening s m (prepared s m.files source bindings directory) r m' := by
  rw [openJob, Attempt.ends_bind] at h
  rcases h with ⟨e, h, rfl⟩ | ⟨resolution, m₁, h, h'⟩
  · obtain ⟨he, ha, hf⟩ := preprocess_ends h
    exact ⟨ha, .unprepared he.symm hf⟩
  obtain ⟨hp, ha, hf⟩ := preprocess_ends h
  rw [Attempt.ends_bind] at h'
  rcases h' with ⟨e, h', rfl⟩ | ⟨w, m₂, h', h''⟩
  · obtain ⟨ha', hopens, hr, -⟩ := Workspace.ofSettings_ends h'
    exact ⟨ha.trans ha', .failed hp.symm (hr e rfl) (hf ▸ hopens)⟩
  obtain ⟨ha', hopens, -, hw⟩ := Workspace.ofSettings_ends h'
  obtain ⟨hdebug, hleads, place, hcanonical⟩ := hw w rfl
  have ha₂ := ha.trans ha'
  have hn₂ : NamesFit m₂ := fun n => ha₂.names ▸ hn n
  rw [Attempt.ends_bind] at h''
  rcases h'' with ⟨e, h'', rfl⟩ | ⟨job, m₃, h'', hpure⟩
  · obtain ⟨ha'', hr, hsame, -⟩ := Workspace.begin_ends hcanonical hn₂ h''
    exact ⟨ha₂.trans ha'', .failed hp.symm (hr e rfl) (hsame e rfl ▸ hf ▸ hopens)⟩
  · obtain ⟨ha'', -, -, hjob⟩ := Workspace.begin_ends hcanonical hn₂ h''
    obtain ⟨rfl, rfl⟩ := Attempt.ends_pure.1 hpure
    obtain ⟨name, hopensJob⟩ := hjob job rfl
    exact ⟨ha₂.trans ha'', .opened hp.symm ⟨⟨_, hf ▸ hopens, hopensJob⟩,
      ⟨_, place, name, hf ▸ hopens, hleads, hcanonical.path, rfl⟩, hdebug⟩⟩

/-! ## Calling the compiler -/

/-- A command was performed: it found the files of one machine and left those of the other. -/
structure Performs (c : Command) (m m' : Machine) : Prop where
  files : m'.files = (m.programs c m.files).2
  performed : m'.performed = m.performed ++ [(c, m.files)]
  programs : m'.programs = m.programs
  names : m'.names = m.names
  clock : m'.clock = m.clock

theorem noRefusal_result (c : Command) (outcome : Outcome) : NoRefusal (c.result outcome) := by
  cases outcome with
  | absent => exact noRefusal_error id
  | refused reason => exact noRefusal_error id
  | overran => exact noRefusal_error id
  | exited code stdout stderr =>
    rw [Command.result]
    split
    · exact noRefusal_ok _
    · exact noRefusal_error id

theorem execute_ends {c : Command} {r : Except Failure CommandOutput} (h : c.execute.Ends m r m') :
    r = c.result (m.programs c m.files).1 ∧ Performs c m m' := by
  simp only [Command.execute, Attempt.ends_liftM_bind, Machine.ends_report, Machine.ends_perform,
    Machine.ends_reportAll, Attempt.ends_of] at h
  obtain ⟨_, _, rfl, outcome, _, ⟨rfl, rfl⟩, _, _, rfl, rfl, rfl⟩ := h
  exact ⟨rfl, rfl, rfl, rfl, rfl, rfl⟩

/-- Where the artifact of an input goes: where it is wanted, or else into the scratch directory. -/
def Options.target (o : Options) (s : Settings) (w : Workspace) (input : Path)
    (output : Option Path) : Path :=
  output.getD (w.outputPath input (o.effectiveFormat s))

/-- The compiler was called on an input. What it was to make is what comes back, if it succeeds. -/
structure Invokes (s : Settings) (o : Options) (w : Workspace) (input : Path) (output : Option Path)
    (m : Machine) (r : Except Failure Path) (m' : Machine) : Prop where
  performs : Performs (command s o w input (o.target s w input output)) m m'
  result : r = ((command s o w input (o.target s w input output)).result
    (m.programs (command s o w input (o.target s w input output)) m.files).1).map
      fun _ => o.target s w input output

theorem Invokes.eq_target {w : Workspace} {input p : Path} {output : Option Path}
    (h : Invokes s o w input output m (.ok p) m') : p = o.target s w input output := by
  have hr := h.result
  cases hresult : (command s o w input (o.target s w input output)).result
      (m.programs (command s o w input (o.target s w input output)) m.files).1 with
  | error e =>
    rw [hresult] at hr
    cases hr
  | ok written =>
    rw [hresult] at hr
    exact Except.ok.inj hr

theorem invoke_ends {job : Job} {dependencies : Nat} {output : Option Path} {r : Except Failure Path}
    (h : (invoke s o job dependencies output).Ends m r m') :
    NoRefusal r ∧ Invokes s o job.workspace job.inputPath output m r m' := by
  simp only [invoke, Attempt.ends_lift_bind, Attempt.ends_liftM_bind, Machine.ends_absorb,
    Machine.ends_report] at h
  obtain ⟨format, _, ⟨rfl, rfl⟩, _, _, rfl, h⟩ := h
  rw [Attempt.ends_bind] at h
  rcases h with ⟨e, h, rfl⟩ | ⟨_, m₁, h, hpure⟩
  · obtain ⟨hr, hperforms⟩ := execute_ends h
    exact ⟨(hr ▸ noRefusal_result _ _).of_error, ⟨hperforms.files, hperforms.performed,
      hperforms.programs, hperforms.names, hperforms.clock⟩,
      congrArg (Except.map fun _ => o.target s job.workspace job.inputPath output) hr⟩
  · obtain ⟨hr, hperforms⟩ := execute_ends h
    obtain ⟨rfl, rfl⟩ := Attempt.ends_pure.1 hpure
    exact ⟨noRefusal_ok _, ⟨hperforms.files, hperforms.performed, hperforms.programs,
      hperforms.names, hperforms.clock⟩,
      congrArg (Except.map fun _ => o.target s job.workspace job.inputPath output) hr⟩

/-- How running a job ends. -/
structure RunsJob (s : Settings) (o : Options) (w : Workspace) (place : Location)
    (resolution : Resolution) (output : Option Path) (m : Machine) (done : Job × Except Failure Path)
    (m' : Machine) : Prop where
  noRefusal : NoRefusal done.2
  written : ∃ m₁, Writes w place m m₁ done.1 ∧ ((m' = m₁ ∧ ∀ p, done.2 ≠ .ok p) ∨
    Invokes s o w (.ofLocation (place ++ [inputName place])) output m₁ done.2 m' ∧
      (Contains m.files place [] → ((materials place resolution).map Prod.fst).Nodup →
        Contains m₁.files place (materials place resolution)))
  /-- Where the compiler was called, the entrypoint had been written. -/
  input : m'.performed ≠ m.performed → done.1.input = some (.ofLocation (place ++ [inputName place]))

theorem runJob_ends {w : Workspace} {job : Job} {place : Location} {resolution : Resolution}
    {output : Option Path} {done : Job × Except Failure Path} (h : job.Holds w place m.files)
    (hn : ∀ f ∈ resolution.files, f.entry.scratch = Dependency.scratchName f.entry.source)
    (hne : place ≠ []) (hinput : Path.IsName (inputName place))
    (hrun : Run.Ends (runJob s o job resolution output) m done m') :
    RunsJob s o w place resolution output m done m' := by
  simp only [runJob, Run.ends_bind] at hrun
  obtain ⟨⟨job', r⟩, m₁, hmaterialize, hrun⟩ := hrun
  obtain ⟨hwrites, hr, hcontains⟩ := materialize_ends h hn hne hinput hmaterialize
  cases r with
  | error e =>
    obtain ⟨rfl, rfl⟩ := Run.ends_pure.1 hrun
    exact ⟨hr.of_error, ⟨_, hwrites, .inl ⟨rfl, by simp⟩⟩, absurd hwrites.alike.performed⟩
  | ok _ =>
    simp only [Run.ends_bind, Run.ends_run, Run.ends_pure] at hrun
    obtain ⟨r, m₂, hinvoke, rfl, rfl⟩ := hrun
    obtain ⟨hr', hinvokes⟩ := invoke_ends hinvoke
    have hpath := hwrites.holds.inputPath hne hinput
    rw [hwrites.holds.workspace, hpath] at hinvokes
    exact ⟨hr', ⟨_, hwrites, .inr ⟨hinvokes, fun hempty hnodup => hcontains hempty rfl hnodup⟩⟩,
      fun _ => hpath ▸ input_of_materialize hmaterialize⟩

/-! ## The whole -/

/-- A compilation fails before its job is there, or runs the job and drops it. -/
theorem compileSource_ends {output : Option Path} {r : Except Failure Path}
    (h : (compileSource s source bindings directory output o).Ends m r m') :
    (∃ e, (openJob s source bindings directory).Ends m (.error e) m' ∧ r = .error e) ∨
      ∃ resolution job m₁ done m₂,
        (openJob s source bindings directory).Ends m (.ok (resolution, job)) m₁ ∧
        Run.Ends (runJob s o job resolution output) m₁ done m₂ ∧
        Run.Ends done.1.drop m₂ () m' ∧ r = done.2 := by
  rw [compileSource, Attempt.ends_bind] at h
  rcases h with ⟨e, h, rfl⟩ | ⟨⟨job', result⟩, m₂, h, h'⟩
  · rw [compileJob, Attempt.ends_bind] at h
    rcases h with ⟨e, h, he⟩ | ⟨⟨resolution, job⟩, m₁, -, h⟩
    · obtain rfl := Except.error.inj he
      exact .inl ⟨e, h, rfl⟩
    · obtain ⟨_, -, he⟩ := Attempt.ends_liftM.1 h
      cases he
  · rw [compileJob, Attempt.ends_bind] at h
    rcases h with ⟨e, -, he⟩ | ⟨⟨resolution, job⟩, m₁, hopen, h⟩
    · cases he
    · obtain ⟨done, hrun, he⟩ := Attempt.ends_liftM.1 h
      obtain rfl := Except.ok.inj he
      simp only [Attempt.ends_liftM_bind, Attempt.ends_of] at h'
      obtain ⟨_, _, hdrop, rfl, rfl⟩ := h'
      exact .inr ⟨resolution, job, m₁, _, m₂, hopen, hrun, hdrop, rfl⟩

/-- The course of a compilation: its job is not opened, or it is opened, run and dropped. -/
inductive Course (s : Settings) (o : Options) (output : Option Path) (m : Machine)
    (prepared : Except Failure Resolution) : Except Failure Path → Machine → Prop where
  | unopened {e : Failure} {m' : Machine} : m.Alike m' → Opening s m prepared (.error e) m' →
      Course s o output m prepared (.error e) m'
  | dropped {resolution : Resolution} {w : Workspace} {job : Job} {place : Location}
      {done : Job × Except Failure Path} {m₁ m₂ m' : Machine} {copied : FileSystem} :
      prepared = .ok resolution → m.Alike m₁ → OpensFor s m w job place m₁ →
      RunsJob s o w place resolution output m₁ done m₂ → Drops done.1 m₂ m' copied →
      Course s o output m prepared done.2 m'

/-- A job that was opened for a compilation is run and dropped. -/
theorem course_of_opened {output : Option Path} {resolution : Resolution} {job : Job}
    {done : Job × Except Failure Path} {m₁ m₂ : Machine} (ht : m.files.IsTree) (hn : NamesFit m)
    (hopen : (openJob s source bindings directory).Ends m (.ok (resolution, job)) m₁)
    (hrun : Run.Ends (runJob s o job resolution output) m₁ done m₂)
    (hdrop : Run.Ends done.1.drop m₂ () m') :
    ∃ w place copied, prepared s m.files source bindings directory = .ok resolution ∧ m.Alike m₁ ∧
      OpensFor s m w job place m₁ ∧ RunsJob s o w place resolution output m₁ done m₂ ∧
      Drops done.1 m₂ m' copied := by
  obtain ⟨ha, hopening⟩ := openJob_ends hn hopen
  obtain ⟨copied, hdrops⟩ := Workspace.drop_ends hdrop
  cases hopening with
  | @opened _ w _ place _ hr hfor =>
    obtain ⟨hholds, -, ⟨front, name, hp⟩, hinput⟩ := hfor.holds ht
    obtain ⟨text, hresolve⟩ := resolve_of_prepared hr
    have hscratch : ∀ f ∈ resolution.files, f.entry.scratch = Dependency.scratchName f.entry.source :=
      fun f hf => (Dependency.materialized_of_resolve hresolve hf).2.1
    exact ⟨w, place, copied, hr, ha, hfor, runJob_ends hholds hscratch (by simp [hp]) hinput hrun, hdrops⟩

theorem compileSource_course {output : Option Path} {r : Except Failure Path} (ht : m.files.IsTree)
    (hn : NamesFit m) (h : (compileSource s source bindings directory output o).Ends m r m') :
    Course s o output m (prepared s m.files source bindings directory) r m' := by
  rcases compileSource_ends h with
    ⟨e, hopen, rfl⟩ | ⟨resolution, job, m₁, done, m₂, hopen, hrun, hdrop, rfl⟩
  · exact .unopened (openJob_ends hn hopen).1 (openJob_ends hn hopen).2
  · obtain ⟨w, place, copied, hr, ha, hfor, hruns, hdrops⟩ := course_of_opened ht hn hopen hrun hdrop
    exact .dropped hr ha hfor hruns hdrops

/-- What compiling a file reads first: its text is the source, and its imports are seen from where it
lies. -/
def Reads (fs : FileSystem) (input : Path) (source : String) (directory : Option Path) : Prop :=
  ∃ file, fs.canonicalize input = .ok file ∧ fs.readText file = .ok source ∧ directory = file.parent?

/-- How taking an artifact ends: the workspace is not there any more, or the artifact is read and no file
is left under its path. -/
inductive Takes (s : Settings) (p : Path) (m : Machine) : Except Failure Text.Bytes → Machine → Prop where
  | closed {q : Path} {reason : String} {m' : Machine} : m.Alike m' → Opens s m.files m'.files →
      Takes s p m (.error (.workspace q reason)) m'
  | taken {m' : Machine} : m.Alike m' → m'.files.isFile p = false →
      Takes s p m ((m.files.read p).mapError fun e => .outputUnreadable p e.message) m'

theorem Takes.alike {p : Path} {r : Except Failure Text.Bytes} (h : Takes s p m r m') : m.Alike m' := by
  cases h with
  | closed ha _ => exact ha
  | taken ha _ => exact ha

/-- Compiling to octets fails as the compilation does, or takes the artifact. -/
theorem compileToBytes_takes {service : Service} {r : Except Failure Text.Bytes}
    (h : (compileToBytes service source bindings o).Ends m r m') :
    (∃ e, (compileSource service.settings source bindings o.directory none o).Ends m (.error e) m' ∧
      r = .error e) ∨
    ∃ p m₁, (compileSource service.settings source bindings o.directory none o).Ends m (.ok p) m₁ ∧
      Takes service.settings p m₁ r m' := by
  rw [compileToBytes, Attempt.ends_bind] at h
  rcases h with ⟨e, h, rfl⟩ | ⟨p, m₁, h, h'⟩
  · exact .inl ⟨e, h, rfl⟩
  refine .inr ⟨p, m₁, h, ?_⟩
  simp only [Attempt.ends_liftM_bind, Machine.ends_getFiles] at h'
  obtain ⟨_, m₁, ⟨rfl, rfl⟩, h'⟩ := h'
  rw [Attempt.ends_bind] at h'
  rcases h' with ⟨e, h', rfl⟩ | ⟨w, m₂, h', h''⟩
  · obtain ⟨ha, hopens, -⟩ := Workspace.ofSettings_ends h'
    obtain ⟨q, reason, rfl⟩ := Workspace.ofSettings_failure h'
    exact .closed ha hopens
  · simp only [Attempt.ends_liftM_bind, Attempt.ends_of] at h''
    obtain ⟨_, _, hcleanup, rfl, rfl⟩ := h''
    obtain ⟨ha, hgone⟩ := Workspace.cleanupOutput_ends hcleanup
    exact .taken ((Workspace.ofSettings_ends h').1.trans ha) hgone

theorem compileToBytes_ends {service : Service} {r : Except Failure Text.Bytes}
    (h : (compileToBytes service source bindings o).Ends m r m') :
    ∃ r₁ m₁, (compileSource service.settings source bindings o.directory none o).Ends m r₁ m₁ ∧
      m₁.Alike m' ∧ ∀ bytes, r = .ok bytes → ∃ p, r₁ = .ok p ∧ m₁.files.read p = .ok bytes := by
  rcases compileToBytes_takes h with ⟨e, hsource, rfl⟩ | ⟨p, m₁, hsource, htakes⟩
  · exact ⟨_, _, hsource, .refl _, by simp⟩
  · refine ⟨_, _, hsource, htakes.alike, fun bytes hb => ⟨p, rfl, ?_⟩⟩
    cases htakes with
    | closed _ _ => cases hb
    | taken _ _ => exact mapError_eq_ok_iff.1 hb

/-- Where the artifact of a file goes: where it is wanted, seen from the current directory, or else next to
the file. -/
def Options.fileTarget (o : Options) (s : Settings) (fs : FileSystem) (file : Path)
    (output : Option Path) : Path :=
  (output.map (absolute fs)).getD (defaultOutput file (o.effectiveFormat s))

/-- A file that is not read is not compiled. What is read is compiled to the target of the file. -/
theorem compileFile_targets {service : Service} {input : Path} {output : Option Path}
    {r : Except Failure Path} (h : (compileFile service input output bindings o).Ends m r m') :
    (NoRefusal r ∧ m' = m) ∨ ∃ file source m₁, m.files.canonicalize input = .ok file ∧
      m.files.readText file = .ok source ∧ m.Alike m₁ ∧ m₁.files = m.files ∧
      (compileSource service.settings source bindings file.parent?
        (some (o.fileTarget service.settings m.files file output)) o).Ends m₁ r m' := by
  simp only [compileFile, Attempt.ends_liftM_bind, Machine.ends_getFiles] at h
  obtain ⟨_, _, ⟨rfl, rfl⟩, h⟩ := h
  split at h
  · obtain ⟨rfl, rfl⟩ := Attempt.ends_throw.1 h
    exact .inl ⟨noRefusal_error id, rfl⟩
  split at h
  · obtain ⟨rfl, rfl⟩ := Attempt.ends_throw.1 h
    exact .inl ⟨noRefusal_error id, rfl⟩
  · next file hfile =>
    split at h
    · obtain ⟨rfl, rfl⟩ := Attempt.ends_throw.1 h
      exact .inl ⟨noRefusal_error id, rfl⟩
    · next source hsource =>
      simp only [Attempt.ends_lift_bind, Machine.ends_absorb] at h
      obtain ⟨format, m₁, ⟨rfl, rfl⟩, h⟩ := h
      refine .inr ⟨file, source, _, hfile, hsource, ?_, ?_, h⟩
      · exact ⟨rfl, rfl, rfl, rfl⟩
      · rfl

/-- A file that is not read is not compiled. -/
theorem compileFile_ends {service : Service} {input : Path} {output : Option Path}
    {r : Except Failure Path} (h : (compileFile service input output bindings o).Ends m r m') :
    (NoRefusal r ∧ m' = m) ∨ ∃ source directory target m₁, Reads m.files input source directory ∧
      m.Alike m₁ ∧ m₁.files = m.files ∧
      (compileSource service.settings source bindings directory (some target) o).Ends m₁ r m' := by
  rcases compileFile_targets h with hnone | ⟨file, source, m₁, hfile, hsource, ha, hf, h⟩
  · exact .inl hnone
  · exact .inr ⟨source, _, _, m₁, ⟨file, hfile, hsource, rfl⟩, ha, hf, h⟩

end Galley.Service
