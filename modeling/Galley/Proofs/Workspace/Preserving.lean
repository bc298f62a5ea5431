import Galley.Proofs.Workspace.Copies
import Galley.Proofs.Workspace.Session
import Mathlib.Data.List.Nodup

/-! # The copies of a workspace

Jobs are opened, written into and dropped and artifacts are cleaned up in any order, while other programs put
files into place and take them away. Next to the machine stands what was copied so far. Each step adds to that
what it deletes, so after any number of steps the debug directory is known: under the name of a copy is the last
file that got this name, if there was room for it. -/

namespace Galley.Workspace

open FileSystem (HasRoom)

/-- What is kept of a job when it is dropped: its entrypoint and its dependencies, as far as they are there. -/
def Job.kept (job : Job) (m : Machine) : List Kept :=
  let inputs := keptFrom m.files m.clock .input m.looked job.input.toList
  inputs ++ keptFrom m.files m.clock .dependency (m.looked + inputs.length) job.dependencies

/-- A machine with the jobs that are open on it and the files that were copied so far. -/
structure State where
  machine : Machine
  jobs : List Job
  kept : List Kept

namespace Ground

variable {g : Ground} {fs fs' : FileSystem} {p : Path} {kept : List Kept} {job : Job} {m m' : Machine}
  {found : FileSystem.Place} {follow : Bool} {file : String} {x : Write} {s s' : State} {before : FileSystem}

/-- Where the directory of a job is. -/
def place (g : Ground) (job : Job) : Location := g.scratch ++ [job.directory.fileName]

/-- A path can be cleaned up when it leads to no copy and is no link that has to stay. -/
structure Cleans (g : Ground) (fs : FileSystem) (p : Path) : Prop where
  beside : ∀ follow found, fs.locate p follow = .ok found → g.Beside found.location
  way : ∀ found, fs.locate p false = .ok found → ∀ target, g.ways.node? found.location ≠ some (.link target)

/-- What may be done next. Where opening or writing fails, the jobs are as they were. Other programs may change
files, but neither copies nor what has to stay, and they make no links. -/
inductive Step (g : Ground) : State → State → Prop where
  | begun {m m' : Machine} {jobs : List Job} {kept : List Kept} {job : Job} :
      g.workspace.begin.Ends m (.ok job) m' → Step g ⟨m, jobs, kept⟩ ⟨m', jobs ++ [job], kept⟩
  | notBegun {m m' : Machine} {jobs : List Job} {kept : List Kept} {e : Failure} :
      g.workspace.begin.Ends m (.error e) m' → Step g ⟨m, jobs, kept⟩ ⟨m', jobs, kept⟩
  | wrote {m m' : Machine} {pre post : List Job} {kept : List Kept} {job job' : Job} {x : Write} :
      Path.IsName (x.name (g.place job)) → (x.into job).Ends m (.ok job') m' →
        Step g ⟨m, pre ++ job :: post, kept⟩ ⟨m', pre ++ job' :: post, kept⟩
  | notWrote {m m' : Machine} {pre post : List Job} {kept : List Kept} {job : Job} {x : Write} {e : Failure} :
      Path.IsName (x.name (g.place job)) → (x.into job).Ends m (.error e) m' →
        Step g ⟨m, pre ++ job :: post, kept⟩ ⟨m', pre ++ job :: post, kept⟩
  | dropped {m m' : Machine} {pre post : List Job} {kept : List Kept} {job : Job} {u : Unit} :
      Run.Ends job.drop m u m' →
        Step g ⟨m, pre ++ job :: post, kept⟩ ⟨m', pre ++ post, kept ++ job.kept m⟩
  | cleaned {m m' : Machine} {jobs : List Job} {kept : List Kept} {p : Path} {u : Unit} :
      g.Cleans m.files p → Run.Ends (g.workspace.cleanupOutput p) m u m' →
        Step g ⟨m, jobs, kept⟩ ⟨m', jobs, kept ++ keptFrom m.files m.clock .output m.looked [p]⟩
  | outside {m : Machine} {jobs : List Job} {kept : List Kept} {fs : FileSystem} :
      g.Evolves [] m.files fs → Step g ⟨m, jobs, kept⟩ ⟨{ m with files := fs }, jobs, kept⟩

/-- Any number of steps. -/
abbrev Steps (g : Ground) : State → State → Prop := Relation.ReflTransGen g.Step

/-! ## Open jobs -/

/-- An open job: no link stands where its directory is, nor below, and it tracks files directly in it. -/
structure HasJob (g : Ground) (job : Job) (fs : FileSystem) : Prop where
  workspace : job.workspace = g.workspace
  directory : job.directory = .ofLocation (g.place job)
  named : ∃ name, job.directory.fileName = jobStart ++ name
  isName : Path.IsName job.directory.fileName
  apart : ∀ node, g.ways.node? (g.place job) = some node → ∃ content, node = .file content
  unlinked : ∀ rest target, fs.node? (g.place job ++ rest) ≠ some (.link target)
  tracked : ∀ p ∈ job.tracked, ∃ file, Path.IsName file ∧ p = .ofLocation (g.place job ++ [file])
  distinct : job.dependencies.Nodup

theorem beside_jobStart (g : Ground) (name : String) : g.Beside (g.scratch ++ [jobStart ++ name]) :=
  fun other ho he => by
    obtain ⟨-, hlast⟩ := List.append_inj' he rfl
    exact ho.ne_jobStart name (List.cons.inj hlast).1

namespace HasJob

theorem of_evolves (h : g.HasJob job fs) (he : g.Evolves kept fs fs') : g.HasJob job fs' :=
  { h with unlinked := fun rest target hl => h.unlinked rest target (he.links hl) }

theorem isName_place (h : g.HasJob job fs) : ∀ n ∈ g.place job, Path.IsName n :=
  List.forall_mem_append.2 ⟨g.scratchAt.direct.isName, List.forall_mem_singleton.2 h.isName⟩

/-- The directory of a job is not that of the copies. -/
theorem beside (h : g.HasJob job fs) (file : String) : g.Beside (g.place job ++ [file]) := fun name _ he => by
  obtain ⟨hplace, -⟩ := List.append_inj' he rfl
  obtain ⟨content, hfile⟩ := h.apart _ (hplace ▸ g.copiesAt)
  cases hfile

theorem beside_place (h : g.HasJob job fs) : g.Beside (g.place job) := by
  obtain ⟨name, hn⟩ := h.named
  rw [place, hn]
  exact g.beside_jobStart name

/-- The path of a name in the directory of a job leads there, if anywhere. -/
theorem location (h : g.HasJob job fs) (hs : g.Stands fs) (hn : Path.IsName file)
    (hl : fs.locate (.ofLocation (g.place job ++ [file])) follow = .ok found) :
    found.location = g.place job ++ [file] := by
  have hlinks : ∀ front, front <+: g.place job → ∀ target, fs.node? front ≠ some (.link target) := by
    intro front hf target he
    rcases List.prefix_concat_iff.1 hf with rfl | hf
    · exact h.unlinked [] target (by rwa [List.append_nil])
    · simp [hs.isTree.directory_above hs.scratchAt.node hf] at he
  have hat := FileSystem.directoryAt_of_locate h.isName_place hn hlinks hl
  cases hnode : fs.node? (g.place job ++ [file]) with
  | none => rw [FileSystem.locate_child_free hat hn hnode hl, FileSystem.Place.location]
  | some node =>
    have hnot : ∀ target, node ≠ .link target := fun target he => h.unlinked [file] target (he ▸ hnode)
    rw [FileSystem.locate_child_taken hat hn hnode (.inr hnot) hl, FileSystem.Place.location]

theorem avoids (h : g.HasJob job fs) (hs : g.Stands fs) (hp : p ∈ job.tracked) : g.Avoids fs p := by
  obtain ⟨file, hn, rfl⟩ := h.tracked p hp
  intro found hl
  rw [h.location hs hn hl]
  exact h.beside file

/-- Removing the directory of a job removes what is there and below. -/
theorem evolves_removeTree (h : g.HasJob job fs) (hs : g.Stands fs)
    (hr : fs.removeTree job.directory = .ok fs') : g.Evolves [] fs fs' := by
  simp only [FileSystem.removeTree, bind, Except.bind] at hr
  split at hr
  · cases hr
  next other hfind =>
  have hl := FileSystem.find_eq_ok_iff.1 hfind
  rw [h.directory] at hl
  obtain rfl : other = g.place job := by
    cases hnode : fs.node? (g.place job) with
    | none => cases FileSystem.locate_child_free hs.scratchAt h.isName hnode hl
    | some node =>
      simpa [place] using FileSystem.locate_child_taken hs.scratchAt h.isName hnode (.inl rfl) hl
  split at hr
  · cases hr
  · obtain rfl := Except.ok.inj hr
    refine evolves_remove hs (fun other node hpre hnode => ?_) h.beside_place
    obtain ⟨rest, rfl⟩ := hpre
    by_cases hne : rest = []
    · exact h.apart node (by simpa [hne] using hnode)
    · obtain ⟨content, he⟩ := h.apart _ (g.isTree.directory_of_below hne (by simp [hnode]))
      cases he

/-- Where a file is written into a job. -/
theorem path (h : g.HasJob job fs) (hn : Path.IsName (x.name (g.place job))) :
    x.path job = .ofLocation (g.place job ++ [x.name (g.place job)]) := by
  have hjoin : ∀ name, Path.IsName name →
      job.directory.join name = .ofLocation (g.place job ++ [name]) := fun name hn => by
    rw [h.directory, Path.join_ofLocation h.isName_place hn]
  cases x with
  | dependency name content => exact hjoin name hn
  | input text =>
    rw [Write.path, Job.inputPath]
    simp only [Write.name, inputName, place, List.getLast?_concat, Option.getD_some] at hn ⊢
    exact hjoin _ hn

/-- A job into which a file was written tracks that file, too. -/
theorem recorded (h : g.HasJob job fs) (hn : Path.IsName (x.name (g.place job))) :
    g.HasJob (x.recordedIn job) fs := by
  have hplace : g.place (x.recordedIn job) = g.place job := by
    rw [place, x.directory_recordedIn, place]
  have hpath := h.path hn
  have htracked : ∀ q ∈ (x.recordedIn job).tracked, q = x.path job ∨ q ∈ job.tracked := by
    intro q hq
    cases x with
    | input text =>
      rcases List.mem_cons.1 hq with rfl | hq
      · exact .inl rfl
      · exact .inr (List.mem_append_right _ hq)
    | dependency name content =>
      rw [Write.recordedIn, Job.track] at hq
      split at hq
      · exact .inr hq
      · rw [Job.tracked, ← List.append_assoc, List.mem_append, List.mem_singleton] at hq
        exact hq.symm
  constructor
  case workspace => rw [x.workspace_recordedIn, h.workspace]
  case directory => rw [hplace, x.directory_recordedIn, h.directory]
  case named => rw [x.directory_recordedIn]; exact h.named
  case isName => rw [x.directory_recordedIn]; exact h.isName
  case apart => rw [hplace]; exact h.apart
  case unlinked => rw [hplace]; exact h.unlinked
  case tracked =>
    rw [hplace]
    intro q hq
    rcases htracked q hq with rfl | hq
    · exact ⟨_, hn, hpath⟩
    · exact h.tracked q hq
  case distinct =>
    cases x with
    | input text => exact h.distinct
    | dependency name content =>
      rw [Write.recordedIn, Job.track]
      split
      · exact h.distinct
      · next hnew =>
        refine List.nodup_append.2 ⟨h.distinct, by simp, fun q hq q' hq' he => hnew ?_⟩
        rw [List.mem_singleton.1 hq'] at he
        exact List.any_eq_true.2 ⟨q, hq, by simp [he, Path.same]⟩

/-- The files of a job get different copies. -/
theorem nodup_kept (h : g.HasJob job m.files) (hc : ∀ n, IsTime (m.clock n)) :
    ((job.kept m).map Kept.name).Nodup := by
  have hpath : ∀ p ∈ job.tracked, p = .ofLocation (g.place job ++ [p.fileName]) := fun p hp => by
    obtain ⟨file, hn, rfl⟩ := h.tracked p hp
    rw [Path.fileName_ofLocation (List.forall_mem_append.2 ⟨h.isName_place, List.forall_mem_singleton.2 hn⟩)]
  have hfiles : (job.dependencies.map Path.fileName).Nodup :=
    h.distinct.map_on fun p hp q hq he => by
      rw [hpath p (by simp [Job.tracked, hp]), hpath q (by simp [Job.tracked, hq]), he]
  rw [Job.kept, List.map_append, List.nodup_append]
  refine ⟨nodup_keptFrom hc (by cases job.input <;> simp), nodup_keptFrom hc hfiles, fun a ha b hb he => ?_⟩
  obtain ⟨k, hk, rfl⟩ := List.mem_map.1 ha
  obtain ⟨k', hk', rfl⟩ := List.mem_map.1 hb
  have hlegal := isLegal_of_mem_keptFrom hc hk
  have hlegal' := isLegal_of_mem_keptFrom hc hk'
  obtain ⟨-, hrole, -⟩ := (copyName_inj hlegal.isTime hlegal'.isTime).1 he
  rw [(of_mem_keptFrom hk).1, (of_mem_keptFrom hk').1] at hrole
  cases hrole

end HasJob

/-! ## One step -/

theorem hasJob_of_opens {name : String} (hs : g.Stands fs)
    (h : OpensJob g.workspace fs job (g.scratch ++ [jobStart ++ name]) fs') : g.HasJob job fs' := by
  have hnames := h.directoryAt.direct.isName
  have hfile : job.directory.fileName = jobStart ++ name := by
    rw [h.directory, Path.fileName_ofLocation hnames]
  have hplace : g.place job = g.scratch ++ [jobStart ++ name] := by rw [place, hfile]
  have hnone := h.puts.before
  rw [← hplace] at hnone
  constructor
  case workspace => exact h.workspace
  case directory => rw [hplace, h.directory]
  case named => exact ⟨name, hfile⟩
  case isName => exact hfile ▸ hnames _ (by simp)
  case apart =>
    intro node hnode
    cases node with
    | file content => exact ⟨content, rfl⟩
    | directory => cases (hs.ways.directory hnode).symm.trans hnone
    | link target => cases (hs.ways.link hnode).symm.trans hnone
  case unlinked =>
    intro rest target hl
    rw [h.puts.node?, ← hplace] at hl
    split at hl
    · cases hl
    · rw [hs.isTree.none_beneath hnone (List.prefix_append _ _)] at hl
      cases hl
  case tracked => simp [Job.tracked, h.input, h.dependencies]
  case distinct => simp [h.dependencies]

/-- Dropping a job copies its files and then removes its directory. -/
theorem drop_evolves {u : Unit} (h : Run.Ends job.drop m u m') (hjob : g.HasJob job m.files)
    (hs : g.Stands m.files) (hc : ∀ n, IsTime (m.clock n)) :
    m.Alike m' ∧ g.Evolves (job.kept m) m.files m'.files := by
  simp only [Job.drop, hjob.workspace, g.debugDirectory] at h
  obtain ⟨_, m₁, hinput, h⟩ := Run.ends_bind.1 h
  obtain ⟨_, m₂, hdependencies, h⟩ := Run.ends_bind.1 h
  have hin := preserveAll_preserves hinput hs hc fun p hp => hjob.avoids hs (by simp [Job.tracked, hp])
  have hours : ∀ p ∈ job.dependencies, g.Avoids m.files p := fun p hp =>
    hjob.avoids hs (by simp [Job.tracked, hp])
  have hdep := preserveAll_preserves hdependencies hin.evolves.stands (hin.alike.clock ▸ hc)
    fun p hp => hin.avoids (hours p hp)
  rw [hin.keptFrom_eq hours, hin.looked] at hdep
  have hboth := hin.trans hdep
  obtain ⟨ha, hremoval⟩ := removal_ends h
  refine ⟨hboth.alike.trans ha, ?_⟩
  rcases hremoval with hok | ⟨e, -, hsame⟩
  · have hremoved := (hjob.of_evolves hboth.evolves).evolves_removeTree hboth.evolves.stands hok
    have hall := hboth.evolves.trans hremoved
    rwa [List.append_nil] at hall
  · exact hsame ▸ hboth.evolves

/-- Cleaning up an artifact copies it and then removes it. -/
theorem cleanupOutput_evolves {u : Unit} (h : Run.Ends (g.workspace.cleanupOutput p) m u m')
    (hp : g.Cleans m.files p) (hs : g.Stands m.files) (hc : ∀ n, IsTime (m.clock n)) :
    m.Alike m' ∧ g.Evolves (keptFrom m.files m.clock .output m.looked [p]) m.files m'.files := by
  simp only [cleanupOutput, g.debugDirectory] at h
  obtain ⟨_, m₁, hpreserve, h⟩ := Run.ends_bind.1 h
  have hkept := preserve_preserves hpreserve hs hc (hp.beside true)
  simp only [Run.ends_bind, Machine.ends_getFiles] at h
  obtain ⟨_, m₂, ⟨rfl, hm⟩, h⟩ := h
  rw [hm] at h
  split at h
  · next fs hremove =>
    obtain rfl := Machine.ends_putFiles.1 h
    refine ⟨hkept.alike.trans ⟨rfl, rfl, rfl, rfl⟩, ?_⟩
    obtain ⟨place, hl, hplace, rfl⟩ :=
      FileSystem.exists_of_removeFile (FileSystem.removeIfThere_eq_some hremove)
    obtain ⟨found, hb, he⟩ := hkept.locates hl
    rw [FileSystem.Place.location] at he
    have hstands := hkept.evolves.stands
    have hbeside : g.Beside place := he ▸ hp.beside false found hb
    have hway : ∀ target, g.ways.node? place ≠ some (.link target) := he ▸ hp.way found hb
    have hnot : g.ways.node? place ≠ some .directory := fun hd => hplace (hstands.ways.directory hd)
    have hremoved : g.Evolves [] m₁.files (m₁.files.remove place) := by
      refine evolves_remove hstands (fun other node hpre hnode => ?_) hbeside
      obtain ⟨rest, rfl⟩ := hpre
      by_cases hne : rest = []
      · rw [hne, List.append_nil] at hnode
        cases node with
        | file content => exact ⟨content, rfl⟩
        | directory => exact absurd hnode hnot
        | link target => exact absurd hnode (hway target)
      · exact absurd (g.isTree.directory_of_below hne (by simp [hnode])) hnot
    simpa using hkept.evolves.trans hremoved
  · obtain ⟨-, rfl⟩ := Run.ends_pure.1 h
    exact ⟨hkept.alike, hkept.evolves⟩
  · obtain rfl := Machine.ends_report.1 h
    exact ⟨hkept.alike.trans ⟨rfl, rfl, rfl, rfl⟩, hkept.evolves⟩

/-- A write into a job puts a file into its directory, or changes nothing. -/
theorem into_evolves {r : Except Failure Job} (hjob : g.HasJob job m.files) (hs : g.Stands m.files)
    (hn : Path.IsName (x.name (g.place job))) (h : (x.into job).Ends m r m') :
    m.Alike m' ∧ g.Evolves [] m.files m'.files ∧ ∀ job', r = .ok job' → job' = x.recordedIn job := by
  have hwrite : ∀ {r m'}, (Job.write (x.path job) x.content).Ends m r m' →
      m.Alike m' ∧ g.Evolves [] m.files m'.files := by
    intro r m' h
    simp only [Job.write, Attempt.ends_mk, Run.ends_bind, Run.ends_pure, hjob.path hn] at h
    obtain ⟨made, m₁, hchange, rfl, rfl⟩ := h
    rcases Machine.ends_change.1 hchange with ⟨fs, hwrite, rfl, rfl⟩ | ⟨e, -, rfl, rfl⟩
    · refine ⟨⟨rfl, rfl, rfl, rfl⟩, ?_⟩
      obtain ⟨found, hl, hputs⟩ := FileSystem.puts_of_write hwrite
      rw [hjob.location hs hn hl] at hputs
      exact evolves_putsFile hs (hjob.beside _) hputs
    · exact ⟨.refl _, .refl hs⟩
  rcases Write.into_ends h with ⟨e, hw, rfl⟩ | ⟨m₁, hw, ha, hfiles, rfl⟩
  · obtain ⟨ha, he⟩ := hwrite hw
    exact ⟨ha, he, by simp⟩
  · obtain ⟨ha', he⟩ := hwrite hw
    exact ⟨ha'.trans ha, hfiles ▸ he, fun job' hj => (Except.ok.inj hj).symm⟩

theorem isLegal_of_mem_kept {k : Kept} (hc : ∀ n, IsTime (m.clock n)) (h : k ∈ job.kept m) : k.IsLegal :=
  (List.mem_append.1 h).elim (isLegal_of_mem_keptFrom hc) (isLegal_of_mem_keptFrom hc)

/-- A file that a job tracks is kept, if it is there. -/
theorem exists_mem_kept {content : Text.Bytes} (hp : p ∈ job.tracked) (hr : m.files.read p = .ok content) :
    ∃ k ∈ job.kept m, k.file = p.fileName ∧ k.content = content := by
  rcases List.mem_append.1 hp with hp | hp
  · obtain ⟨n, hk⟩ := exists_mem_keptFrom hp hr
    exact ⟨_, List.mem_append_left _ hk, rfl, rfl⟩
  · obtain ⟨n, hk⟩ := exists_mem_keptFrom hp hr
    exact ⟨_, List.mem_append_right _ hk, rfl, rfl⟩

/-- What is known after any number of steps. -/
structure Holds (g : Ground) (before : FileSystem) (s : State) : Prop where
  evolves : g.Evolves s.kept before s.machine.files
  names : NamesFit s.machine
  clock : ∀ n, IsTime (s.machine.clock n)
  jobs : ∀ job ∈ s.jobs, g.HasJob job s.machine.files
  legal : ∀ k ∈ s.kept, k.IsLegal

namespace Holds

variable {jobs jobs' : List Job} {kept' : List Kept}

theorem init (hs : g.Stands m.files) (hn : NamesFit m) (hc : ∀ n, IsTime (m.clock n)) :
    g.Holds m.files ⟨m, [], []⟩ where
  evolves := .refl hs
  names := hn
  clock := hc
  jobs _ hj := by cases hj
  legal _ hk := by cases hk

/-- More was copied, and the jobs are those that were open or were just opened or written into. -/
theorem copied (h : g.Holds before ⟨m, jobs, kept⟩) (ha : m.Alike m') (he : g.Evolves kept' m.files m'.files)
    (hl : ∀ k ∈ kept', k.IsLegal) (hj : ∀ job ∈ jobs', job ∈ jobs ∨ g.HasJob job m'.files) :
    g.Holds before ⟨m', jobs', kept ++ kept'⟩ where
  evolves := h.evolves.trans he
  names n := ha.names ▸ h.names n
  clock n := ha.clock ▸ h.clock n
  jobs job hm := (hj job hm).elim (fun ho => (h.jobs job ho).of_evolves he) id
  legal k hk := (List.mem_append.1 hk).elim (h.legal k) (hl k)

theorem changed (h : g.Holds before ⟨m, jobs, kept⟩) (ha : m.Alike m') (he : g.Evolves [] m.files m'.files)
    (hj : ∀ job ∈ jobs', job ∈ jobs ∨ g.HasJob job m'.files) : g.Holds before ⟨m', jobs', kept⟩ := by
  have hnext := h.copied ha he (by simp) hj
  rwa [List.append_nil] at hnext

theorem step (h : g.Holds before s) (hs : g.Step s s') : g.Holds before s' := by
  have hstands := h.evolves.stands
  have hcanonical : IsCanonical s.machine.files g.workspace.directory g.scratch :=
    ⟨g.directory, hstands.scratchAt.direct, .directory, hstands.scratchAt.node, by simp⟩
  cases hs with
  | begun hbegin =>
    obtain ⟨ha, -, -, hopens⟩ := begin_ends hcanonical h.names hbegin
    obtain ⟨name, hjob⟩ := hopens _ rfl
    refine h.changed ha (evolves_putsDirectory hstands (g.beside_jobStart name) hjob.puts) fun job hm => ?_
    rcases List.mem_append.1 hm with hm | hm
    · exact .inl hm
    · rw [List.mem_singleton.1 hm]
      exact .inr (hasJob_of_opens hstands hjob)
  | @notBegun m m' _ _ _ hbegin =>
    obtain ⟨ha, -, hsame, -⟩ := begin_ends hcanonical h.names hbegin
    have he : g.Evolves [] m.files m'.files := by
      rw [hsame _ rfl]
      exact .refl hstands
    exact h.changed ha he fun _ => .inl
  | wrote hx hw =>
    have hjob := h.jobs _ (List.mem_append_right _ (.head _))
    obtain ⟨ha, he, hrecorded⟩ := into_evolves hjob hstands hx hw
    refine h.changed ha he fun job hm => ?_
    rcases List.mem_append.1 hm with hm | hm
    · exact .inl (List.mem_append_left _ hm)
    · rcases List.mem_cons.1 hm with rfl | hm
      · rw [hrecorded _ rfl]
        exact .inr ((hjob.recorded hx).of_evolves he)
      · exact .inl (List.mem_append_right _ (.tail _ hm))
  | notWrote hx hw =>
    have hjob := h.jobs _ (List.mem_append_right _ (.head _))
    obtain ⟨ha, he, -⟩ := into_evolves hjob hstands hx hw
    exact h.changed ha he fun _ => .inl
  | dropped hdrop =>
    have hjob := h.jobs _ (List.mem_append_right _ (.head _))
    obtain ⟨ha, he⟩ := drop_evolves hdrop hjob hstands h.clock
    refine h.copied ha he (fun k hk => isLegal_of_mem_kept h.clock hk) fun job hm => .inl ?_
    exact (List.mem_append.1 hm).elim (List.mem_append_left _) fun hm => List.mem_append_right _ (.tail _ hm)
  | cleaned hp hclean =>
    obtain ⟨ha, he⟩ := cleanupOutput_evolves hclean hp hstands h.clock
    exact h.copied ha he (fun k hk => isLegal_of_mem_keptFrom h.clock hk) fun _ => .inl
  | outside he => exact h.changed ⟨rfl, rfl, rfl, rfl⟩ he fun _ => .inl

theorem steps (hs : g.Stands m.files) (hn : NamesFit m) (hc : ∀ n, IsTime (m.clock n))
    (h : g.Steps ⟨m, [], []⟩ s) : g.Holds m.files s := by
  induction h with
  | refl => exact .init hs hn hc
  | tail _ hstep ih => exact ih.step hstep

/-- Under the name of a copy is the last file that got it, if there is room for the name. -/
theorem node?_copy {front back : List Kept} {k : Kept} (h : g.Holds before s)
    (hk : s.kept = front ++ k :: back) : s.machine.files.node? (g.copies ++ [k.name]) =
      if HasRoom g.debug k.name then some (.file (k.survivor back).content)
      else before.node? (g.copies ++ [k.name]) := by
  rw [h.evolves.copied _ (h.legal k (by simp [hk])).namesCopy, hk]
  split
  · next hroom => rw [copied?_of_room hroom]; rfl
  · next hroom => rw [copied?_of_not_room hroom]; rfl

end Holds

/-! ## Every run -/

/-- Whatever is done with the jobs and the artifacts of a workspace, in any order, each file that is dropped with
its job and each artifact that is cleaned up is copied under a name that tells the time, what the file was for and
what it was called. After any number of steps the last file that got a name is there; under a name that is too
long to be written stands what stood there before. So nothing is lost when all names can be written and no two
files of one name were copied for the same at the same time; the files of one job never get one name. -/
theorem preserved_copies (hs : g.Stands m.files) (hn : NamesFit m) (hc : ∀ n, IsTime (m.clock n))
    (h : g.Steps ⟨m, [], []⟩ s) :
    (∀ front k back, s.kept = front ++ k :: back → s.machine.files.node? (g.copies ++ [k.name]) =
      if HasRoom g.debug k.name then some (.file (k.survivor back).content)
      else m.files.node? (g.copies ++ [k.name])) ∧
    (∀ k ∈ s.kept, ∀ k' ∈ s.kept,
      k.name = k'.name ↔ k.time = k'.time ∧ k.role = k'.role ∧ k.file = k'.file) ∧
    ((∀ k ∈ s.kept, HasRoom g.debug k.name) → (s.kept.map Kept.name).Nodup →
      ∀ k ∈ s.kept, s.machine.files.node? (g.copies ++ [k.name]) = some (.file k.content)) ∧
    ∀ job ∈ s.jobs, ((job.kept s.machine).map Kept.name).Nodup ∧
      ∀ p ∈ job.tracked, ∀ content, s.machine.files.read p = .ok content →
        ∃ k ∈ job.kept s.machine, k.file = p.fileName ∧ k.content = content := by
  have hholds := Holds.steps hs hn hc h
  refine ⟨fun front k back hk => hholds.node?_copy hk, fun k hk k' hk' => ?_, fun hroom hnodup k hk => ?_,
    fun job hj => ⟨(hholds.jobs job hj).nodup_kept hholds.clock, fun p hp content hr => exists_mem_kept hp hr⟩⟩
  · exact copyName_inj (hholds.legal k hk).isTime (hholds.legal k' hk').isTime
  · obtain ⟨front, back, hsplit⟩ := List.append_of_mem hk
    rw [hholds.node?_copy hsplit, if_pos (hroom k hk), Kept.survivor_of_forall_ne fun k' hk' he => ?_]
    rw [hsplit, List.map_append, List.map_cons, List.nodup_append, List.nodup_cons] at hnodup
    exact hnodup.2.1.1 (List.mem_map.2 ⟨k', hk', he⟩)

/-! ## A name that is too long

A job is dropped whose dependency has a name of 230 letters. -/

def debugWorkspace : Workspace := ⟨.ofLocation ["t"], some (.ofLocation ["d"])⟩

/-- A machine with an empty scratch directory and an empty debug directory. -/
def emptyDebug : Machine where
  files := ⟨[(["t"], .directory), (["d"], .directory)], [], by decide⟩
  environment := ⟨[]⟩
  programs := fun _ fs => (.exited (some 0) [] [], fs)
  names := fun _ => "a"
  clock := fun _ => "20240101_000000_000"

theorem scratchAt_emptyDebug : emptyDebug.files.IsDirectoryAt ["t"] :=
  ⟨(FileSystem.Direct.root _).append rfl (by decide) (by decide), rfl⟩

theorem copiesAt_emptyDebug : emptyDebug.files.IsDirectoryAt ["d"] :=
  ⟨(FileSystem.Direct.root _).append rfl (by decide) (by decide), rfl⟩

def debugGround : Ground where
  workspace := debugWorkspace
  scratch := ["t"]
  debug := .ofLocation ["d"]
  copies := ["d"]
  ways := emptyDebug.files
  isTree := by decide
  directory := rfl
  scratchAt := scratchAt_emptyDebug
  debugDirectory := rfl
  leads := FileSystem.walk_ofLocation copiesAt_emptyDebug.direct copiesAt_emptyDebug.node (by simp)
  copiesAt := rfl

theorem stands_emptyDebug : debugGround.Stands emptyDebug.files :=
  ⟨by decide, .refl _, fun _ _ => .inl rfl⟩

def emptyJob : Job := { workspace := debugWorkspace, directory := .ofLocation ["t", "typst_a"] }

/-- A dependency as it is copied when the job is dropped. -/
def dependencyKept (name : String) (content : Text.Bytes) : Kept :=
  ⟨"20240101_000000_000", .dependency, name, content⟩

/-- The job is opened, and holds nothing yet. -/
theorem exists_steps_opened : ∃ m, debugGround.Steps ⟨emptyDebug, [], []⟩ ⟨m, [emptyJob], []⟩ ∧
    emptyDebug.Alike m ∧ m.files.IsDirectoryAt ["t", "typst_a"] ∧
      ∀ name, m.files.node? ["t", "typst_a", name] = none := by
  have hbegin := @begin_of_free emptyDebug debugWorkspace ["t"] "typst_a" scratchAt_emptyDebug
    rfl (by decide) (by decide) (by decide) (by decide) rfl
  refine ⟨_, .single (.begun hbegin), ⟨rfl, rfl, rfl, rfl⟩, ?_, fun name => rfl⟩
  exact FileSystem.directoryAt_of_makeDirectory scratchAt_emptyDebug (by decide)
    (FileSystem.makeDirectory_child_of_free scratchAt_emptyDebug (by decide) (by decide) (by decide) rfl)

/-- The job after a dependency was written into it. -/
def emptyJobWith (name : String) : Job :=
  { emptyJob with dependencies := [.ofLocation (["t", "typst_a"] ++ [name])] }

section

variable {name : String} (hn : Path.IsName name) (hs : Text.utf8Size name.toList ≤ FileSystem.nameLimit)
  (hp : FileSystem.IsWalkable (.ofLocation (["t", "typst_a"] ++ [name]))) (content : Text.Bytes)

include hn hs hp

/-- A dependency is written into the job. -/
theorem exists_steps_wrote : ∃ m, debugGround.Steps ⟨emptyDebug, [], []⟩ ⟨m, [emptyJobWith name], []⟩ ∧
    emptyDebug.Alike m ∧ m.files.read (.ofLocation (["t", "typst_a"] ++ [name])) = .ok content := by
  obtain ⟨m, hsteps, halike, hat, hfree⟩ := exists_steps_opened
  have hpath : (Write.dependency name content).path emptyJob = .ofLocation (["t", "typst_a"] ++ [name]) :=
    Path.join_ofLocation hat.direct.isName hn
  have hjob : (Write.dependency name content).recordedIn emptyJob = emptyJobWith name := by
    rw [Write.path] at hpath
    rw [Write.recordedIn, hpath]
    rfl
  obtain ⟨r, m', hinto⟩ := Attempt.exists_ends ((Write.dependency name content).into emptyJob) m
  rcases Write.into_ends hinto with ⟨e, hwrite, rfl⟩ | ⟨m₁, hwrite, ha, hfiles, rfl⟩
  · rw [hpath] at hwrite
    cases write_of_fits hat hn hs hp (.inl (hfree name)) hwrite
  · rw [hpath] at hwrite
    obtain ⟨ha', -, -, hputs⟩ := write_ends hat hn (by simp [hfree]) hwrite
    replace hputs := hputs rfl
    rw [← hfiles] at hputs
    have hx : Path.IsName ((Write.dependency name content).name (debugGround.place emptyJob)) := hn
    have hwrote := hsteps.tail (@Step.wrote debugGround _ _ [] [] _ _ _ _ hx hinto)
    rw [hjob] at hwrote
    exact ⟨m', hwrote, (halike.trans ha').trans ha, hputs.read_child hat hn hs hp⟩

/-- The job is dropped. -/
theorem exists_steps_dropped :
    ∃ m, debugGround.Steps ⟨emptyDebug, [], []⟩ ⟨m, [], [dependencyKept name content]⟩ := by
  obtain ⟨m, hsteps, halike, hread⟩ := exists_steps_wrote hn hs hp content
  have hfile : (Path.ofLocation (["t", "typst_a"] ++ [name])).fileName = name :=
    Path.fileName_ofLocation (List.forall_mem_append.2 ⟨by decide, List.forall_mem_singleton.2 hn⟩)
  have hkept : (emptyJobWith name).kept m = [dependencyKept name content] := by
    simp only [Job.kept, emptyJobWith, emptyJob, Option.toList_none, keptFrom, List.nil_append, hread,
      halike.clock, hfile]
    rfl
  obtain ⟨u, m', hdrop⟩ := Run.exists_ends (emptyJobWith name).drop m
  have hdropped := hsteps.tail (@Step.dropped debugGround _ _ [] [] _ _ _ hdrop)
  rw [hkept] at hdropped
  exact ⟨m', hdropped⟩

end

section

variable (n : Nat)

/-- A name of `n` letters. -/
def letters : String := String.ofList (List.replicate n 'a')

theorem toList_letters : (letters n).toList = List.replicate n 'a' := String.toList_ofList

theorem utf8Size_letters : Text.utf8Size (letters n).toList = n := by
  rw [toList_letters, Text.utf8Size_replicate, show ('a').utf8Size = 1 from rfl, Nat.mul_one]

variable {n}

theorem isName_letters (h : n ≠ 0) : Path.IsName (letters n) := by
  have hdot : '.' ∉ (letters n).toList := by simp [toList_letters]
  refine Path.isName_iff.2 ⟨by simp [toList_letters], ?_, fun he => hdot (by simp [he])⟩
  rw [Path.isIdle, Bool.or_eq_false_iff, beq_eq_false_iff_ne]
  exact ⟨by simpa [toList_letters] using h, fun he => hdot (by simp [he])⟩

/-- The way to the job takes 11 octets with the slash behind it. -/
theorem isWalkable_letters (h : 11 + n ≤ FileSystem.pathLimit) :
    FileSystem.IsWalkable (.ofLocation (["t", "typst_a"] ++ [letters n])) := by
  refine ⟨by simp [Path.ofLocation, Path.isEmpty], ?_, ?_⟩
  · rw [Path.toList_ofLocation_append, toList_letters]
    simp
  · rw [← Text.utf8Size_toList, Path.toList_ofLocation_append, Text.utf8Size_append, Text.utf8Size_cons,
      utf8Size_letters, ← Nat.add_assoc]
    exact h

/-- What stands before the name of a dependency in that of its copy takes 31 octets. -/
theorem not_hasRoom_letters (h : FileSystem.nameLimit < 31 + n) (content : Text.Bytes) :
    ¬HasRoom debugGround.debug (dependencyKept (letters n) content).name := by
  rintro ⟨hshort, -⟩
  rw [dependencyKept, Kept.name, copyName] at hshort
  simp only [String.toList_append, Text.utf8Size_append, utf8Size_letters] at hshort
  exact Nat.not_le_of_lt h hshort

end

/-- A name that can be written, but leaves no room for what stands before it in the name of a copy. -/
def longName : String := letters 230

/-- A file was written and deleted, and there is no copy of it. -/
theorem preserved_copies_longName : ∃ s, debugGround.Steps ⟨emptyDebug, [], []⟩ s ∧
    s.kept = [dependencyKept longName [120]] ∧
      s.machine.files.node? ["d", (dependencyKept longName [120]).name] = none := by
  have hshort : Text.utf8Size (letters 230).toList ≤ FileSystem.nameLimit := by
    rw [utf8Size_letters]
    decide
  have hnames : NamesFit emptyDebug := fun n => show '/' ∉ "a".toList by decide
  have hclock : ∀ n, IsTime (emptyDebug.clock n) := fun n => show IsTime "20240101_000000_000" by decide
  obtain ⟨m, hsteps⟩ := exists_steps_dropped (isName_letters (by decide)) hshort
    (isWalkable_letters (by decide)) [120]
  obtain ⟨hcopies, -⟩ := preserved_copies stands_emptyDebug hnames hclock hsteps
  refine ⟨_, hsteps, rfl, (hcopies [] _ [] rfl).trans ?_⟩
  rw [if_neg (not_hasRoom_letters (by decide) [120])]
  rfl

end Ground

end Galley.Workspace
