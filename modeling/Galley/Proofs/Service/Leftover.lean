import Galley.Proofs.Service.Artifact
import Galley.Proofs.Service.Cleanup

/-! # When an artifact is left

A call that compiles to octets deletes the artifact when the compiler succeeded and the workspace is still
there. When the compiler failed, a file that it made stays. -/

namespace Galley.Service

open Dependency (Resolution)
open Workspace (ClockFits Job NamesFit Opens Spares jobStart)

variable {m m' : Machine} {s : Settings} {source : String} {bindings : Record}
  {directory : Option Path} {o : Options} {output : Option Path} {resolution : Resolution} {job : Job}
  {scratch place : Location} {name : String} {made found : FileSystem}

/-- Where the artifact of a job goes when nothing is said of it. -/
def artifactPath (s : Settings) (o : Options) (job : Job) : Path :=
  job.workspace.outputPath job.inputPath (o.effectiveFormat s)

/-- A job lies in the scratch directory, and its artifact is seen from there, under the name of the job and
the format. -/
structure HasArtifact (s : Settings) (o : Options) (job : Job) (scratch : Location) (name : String) :
    Prop where
  workspace : job.workspace.directory = .ofLocation scratch
  directory : job.directory = .ofLocation (scratch ++ [name])
  isName : ∀ n ∈ scratch ++ [name], Path.IsName n
  artifact : artifactPath s o job = (Path.ofLocation scratch).join (name ++ "." ++ o.effectiveFormat s)

/-- The compiler was called and succeeded. -/
def Succeeded (m m' : Machine) : Prop :=
  ∃ c seen stdout stderr, m'.performed = m.performed ++ [(c, seen)] ∧
    (m.programs c seen).1 = .exited (some 0) stdout stderr

/-- The artifact was taken: the compiler succeeded, and the workspace was still there. -/
def Taken (m : Machine) (r : Except Failure Text.Bytes) (m' : Machine) : Prop :=
  Succeeded m m' ∧ ∀ q reason, r ≠ .error (.workspace q reason)

/-- Where the artifact of a job lies, a file stands exactly when it did before the job was dropped, unless a
copy goes there. -/
def LeavesArtifact (s : Settings) (o : Options) (m m' : Machine) (scratch : Location) (name : String)
    (found : FileSystem) : Prop :=
  Spares (scratch ++ [name]) found → '/' ∉ (o.effectiveFormat s).toList →
    ¬IsCopyPlace s m (scratch ++ [name]) found (scratch ++ [name ++ "." ++ o.effectiveFormat s]) →
    ∀ content, m'.files.node? (scratch ++ [name ++ "." ++ o.effectiveFormat s]) = some (.file content) ↔
      found.node? (scratch ++ [name ++ "." ++ o.effectiveFormat s]) = some (.file content)

/-! ## The success of a compilation -/

theorem exists_result_iff (c : Command) (outcome : Outcome) :
    (∃ written, c.result outcome = .ok written) ↔
      ∃ stdout stderr, outcome = .exited (some 0) stdout stderr := by
  cases outcome with
  | absent | refused _ | overran => simp [Command.result]
  | exited code stdout stderr =>
    by_cases hcode : code = some 0
    · simp [Command.result, hcode]
    · simp [Command.result, hcode]

/-- A compilation gives something exactly when the compiler was called and succeeded. -/
theorem exists_ok_iff_succeeded {w : Workspace} {done : Job × Except Failure Path} {m₁ m₂ : Machine}
    (ha : m.Alike m₁) (hrun : RunsJob s o w place resolution output m₁ done m₂)
    (hp : m'.performed = m₂.performed) : (∃ p, done.2 = .ok p) ↔ Succeeded m m' := by
  obtain ⟨m₃, hwrites, hend⟩ := hrun.written
  have hbefore := ha.trans hwrites.alike
  rcases hend with ⟨rfl, hnone⟩ | ⟨hinvokes, -⟩
  · have huncalled : m'.performed = m.performed := hp.trans hbefore.performed
    constructor
    · rintro ⟨p, hok⟩
      exact absurd hok (hnone p)
    · rintro ⟨c, seen, -, -, hcall, -⟩
      simp [huncalled] at hcall
  · have hcall := hp.trans hinvokes.performs.performed
    rw [hbefore.performed] at hcall
    rw [hinvokes.result, hbefore.programs]
    generalize command s o w _ _ = c at hcall
    have hsucceeds : Succeeded m m' ↔
        ∃ stdout stderr, (m.programs c m₃.files).1 = .exited (some 0) stdout stderr := by
      constructor
      · rintro ⟨c', seen, stdout, stderr, hcall', houtcome⟩
        obtain ⟨rfl, rfl⟩ : c' = c ∧ seen = m₃.files := by simpa using hcall'.symm.trans hcall
        exact ⟨stdout, stderr, houtcome⟩
      · rintro ⟨stdout, stderr, houtcome⟩
        exact ⟨c, m₃.files, stdout, stderr, hcall, houtcome⟩
    rw [hsucceeds, ← exists_result_iff c]
    cases c.result (m.programs c m₃.files).1 with
    | error e => simp [Except.map]
    | ok written => simp [Except.map]

/-! ## The job of a call -/

theorem OpensFor.hasArtifact {w : Workspace} {m₁ : Machine} (ht : m.files.IsTree)
    (h : OpensFor s m w job place m₁) (o : Options) :
    ∃ scratch name, place = scratch ++ [jobStart ++ name] ∧
      HasArtifact s o job scratch (jobStart ++ name) := by
  obtain ⟨hholds, -, -, hinput⟩ := h.holds ht
  obtain ⟨-, scratch, name, -, -, hw, rfl⟩ := h.scratch
  have hnames := hholds.directoryAt.direct.isName
  refine ⟨scratch, name, rfl, hholds.workspace ▸ hw, hholds.directory, hnames, ?_⟩
  rw [artifactPath, hholds.workspace, hholds.inputPath (by simp) hinput, outputPath_inputName _ hnames, hw]

/-- What a compilation with a job comes to: all but the job is left as it was found, but where copies
go. -/
structure Concludes (s : Settings) (o : Options) (job : Job) (m : Machine) (r : Except Failure Path)
    (m' : Machine) (scratch : Location) (name : String) (made found : FileSystem) : Prop where
  hasArtifact : HasArtifact s o job scratch name
  hadJob : HadJob s m m' (scratch ++ [name]) made found
  succeeded : (∃ p, r = .ok p) ↔ Succeeded m m'
  result : ∀ p, r = .ok p → p = artifactPath s o job
  left : Spares (scratch ++ [name]) found → ∀ other, ¬scratch ++ [name] <+: other →
    ¬IsCopyPlace s m (scratch ++ [name]) found other → m'.files.node? other = found.node? other

theorem compileSource_concludes {r : Except Failure Path} (ht : m.files.IsTree) (hn : NamesFit m)
    (hc : ClockFits m) (h : (compileSource s source bindings directory none o).Ends m r m') :
    (∃ e, (openJob s source bindings directory).Ends m (.error e) m' ∧ r = .error e) ∨
      ∃ resolution job m₁ scratch name made found,
        (openJob s source bindings directory).Ends m (.ok (resolution, job)) m₁ ∧
        Concludes s o job m r m' scratch name made found := by
  rcases compileSource_ends h with hfailed | ⟨resolution, job, m₁, done, m₂, hopen, hrun, hdrop, rfl⟩
  · exact .inl hfailed
  obtain ⟨w, place, copied, -, ha, hfor, hruns, hdrops⟩ := course_of_opened ht hn hopen hrun hdrop
  obtain ⟨scratch, name, rfl, hartifact⟩ := hfor.hasArtifact ht o
  obtain ⟨made, targets, hadJob, hcopies, -, hleaves⟩ :=
    hadJob_of_dropped ht hc rfl ha hfor hruns hdrops
  refine .inr ⟨resolution, job, m₁, scratch, jobStart ++ name, made, m₂.files, hopen, hartifact,
    hadJob, exists_ok_iff_succeeded ha hruns hdrops.alike.performed, ?_, ?_⟩
  · intro p hok
    obtain ⟨hholds, -, -, hinput⟩ := hfor.holds ht
    obtain ⟨m₃, -, hend⟩ := hruns.written
    rcases hend with ⟨-, hnone⟩ | ⟨hinvokes, -⟩
    · exact absurd hok (hnone p)
    · rw [hok] at hinvokes
      rw [hinvokes.eq_target, artifactPath, hholds.workspace, hholds.inputPath (by simp) hinput]
      rfl
  · intro hspares other ho hnot
    exact (hleaves hspares).others other ho fun hl => hnot (hcopies other hl)

/-! ## What is left -/

theorem HadJob.of_performed {m₁ : Machine} (h : HadJob s m m₁ place made found)
    (hp : m'.performed = m₁.performed) : HadJob s m m' place made found := by
  refine ⟨h.opens, h.named, h.free, ?_⟩
  cases h.called with
  | uncalled hsame hconfined => exact .uncalled (hp.trans hsame) hconfined
  | called hcall hinput hconfined hd hfound => exact .called (hp.trans hcall) hinput hconfined hd hfound

theorem succeeded_of_performed {m₁ : Machine} (hp : m'.performed = m₁.performed) :
    Succeeded m m' ↔ Succeeded m m₁ := by
  simp only [Succeeded, hp]

/-- No artifact lies in the directory of its job. -/
theorem not_prefix_artifact (format : String) :
    ¬scratch ++ [name] <+: scratch ++ [name ++ "." ++ format] := by
  intro hpre
  have hname : name = name ++ "." ++ format := by simpa using hpre.eq_of_length (by simp)
  have hlength := congrArg (fun n => n.toList.length) hname
  simp only [String.toList_append, List.length_append] at hlength
  have hdot : ".".toList.length = 1 := rfl
  omega

theorem Concludes.leavesArtifact {r : Except Failure Path} {m₁ : Machine}
    (h : Concludes s o job m r m₁ scratch name made found) (ho : Opens s m₁.files m'.files) :
    LeavesArtifact s o m m' scratch name found := by
  intro hspares hslash hnot content
  rw [← h.left hspares _ (not_prefix_artifact _) hnot]
  constructor
  · intro hfile
    cases hbefore : m₁.files.node? (scratch ++ [name ++ "." ++ o.effectiveFormat s]) with
    | none => cases (ho.made hbefore hfile).1
    | some node => rw [← hfile, ho.kept.node hbefore]
  · exact fun hfile => ho.kept.node hfile

/-- A call that compiles to octets has no job; or no file is left under the path of its artifact if the
compiler succeeded and the workspace is still there. Otherwise a file that the compiler left there
stays, and so does one that stood there before. -/
theorem artifact_left_unless_taken {service : Service} {r : Except Failure Text.Bytes}
    (ht : m.files.IsTree) (hn : NamesFit m) (hc : ClockFits m)
    (h : (compileToBytes service source bindings o).Ends m r m') :
    (∃ e, (openJob service.settings source bindings o.directory).Ends m (.error e) m' ∧ r = .error e) ∨
      ∃ resolution job m₀ scratch name made found,
        (openJob service.settings source bindings o.directory).Ends m (.ok (resolution, job)) m₀ ∧
        HasArtifact service.settings o job scratch name ∧
        HadJob service.settings m m' (scratch ++ [name]) made found ∧
        (∀ bytes, r = .ok bytes → Taken m r m') ∧
        (Taken m r m' → m'.files.isFile (artifactPath service.settings o job) = false) ∧
        (¬Taken m r m' → LeavesArtifact service.settings o m m' scratch name found) := by
  rcases compileToBytes_takes h with ⟨e, hsource, rfl⟩ | ⟨p, m₁, hsource, htakes⟩
  · rcases compileSource_concludes ht hn hc hsource with
      ⟨e', hopen, he⟩ | ⟨resolution, job, m₀, scratch, name, made, found, hopen, hends⟩
    · obtain rfl := Except.error.inj he
      exact .inl ⟨e, hopen, rfl⟩
    · have hfailed : ¬Succeeded m m' := fun hs => by
        obtain ⟨p, hok⟩ := hends.succeeded.2 hs
        cases hok
      exact .inr ⟨resolution, job, m₀, scratch, name, made, found, hopen, hends.hasArtifact, hends.hadJob,
        by simp, fun htaken => absurd htaken.1 hfailed,
        fun _ => hends.leavesArtifact (.refl _ m'.files)⟩
  rcases compileSource_concludes ht hn hc hsource with
    ⟨e, -, he⟩ | ⟨resolution, job, m₀, scratch, name, made, found, hopen, hends⟩
  · cases he
  have hp := htakes.alike.performed
  have hsucceeded : Succeeded m m' := (succeeded_of_performed hp).2 (hends.succeeded.1 ⟨p, rfl⟩)
  refine .inr ⟨resolution, job, m₀, scratch, name, made, found, hopen, hends.hasArtifact,
    hends.hadJob.of_performed hp, ?_, ?_, ?_⟩
  · rintro bytes rfl
    exact ⟨hsucceeded, by simp⟩
  · intro htaken
    rw [← hends.result p rfl]
    cases htakes with
    | closed _ _ => exact absurd rfl (htaken.2 _ _)
    | taken _ hgone => exact hgone
  · intro hnot
    cases htakes with
    | closed _ hopens => exact hends.leavesArtifact hopens
    | taken _ _ =>
      refine absurd ⟨hsucceeded, fun q reason he => ?_⟩ hnot
      cases hread : m₁.files.read p with
      | error e => simp [hread, Except.mapError] at he
      | ok bytes => simp [hread, Except.mapError] at he

/-- The file system with a new artifact of the job `typst_n`. -/
def withNewArtifact (fs : FileSystem) : FileSystem :=
  (fs.remove ["t", "typst_n.pdf"]).set ["t", "typst_n.pdf"] (.file [])

theorem node?_withNewArtifact (fs : FileSystem) :
    (withNewArtifact fs).node? ["t", "typst_n.pdf"] = some (.file []) := by
  rw [withNewArtifact, FileSystem.node?_set _ _ _ _ (by decide), if_pos rfl]

/-- A new artifact leaves the directory of the job where it is. -/
theorem spares_withNewArtifact {fs : FileSystem} (ht : fs.IsTree)
    (hd : fs.node? ["t", "typst_n"] = some .directory) :
    Spares ["t", "typst_n"] (withNewArtifact fs) := by
  have hkept (other : Location) (ho : ¬["t", "typst_n.pdf"] <+: other) :
      (fs.remove ["t", "typst_n.pdf"]).node? other = fs.node? other := by
    rw [FileSystem.node?_remove, if_pos (.inr ho)]
  have hfree : (fs.remove ["t", "typst_n.pdf"]).node? (["t"] ++ ["typst_n.pdf"]) = none := by
    rw [FileSystem.node?_remove, if_neg (by simp)]
  have hscratch : (fs.remove ["t", "typst_n.pdf"]).node? ["t"] = some .directory := by
    rw [hkept _ (by decide), ht.directory_above hd (by decide)]
  refine Workspace.spares_of_directory (ht.remove.set hscratch (.inr fun hdirectory => ?_)) ?_
  · cases hfree.symm.trans hdirectory
  · rw [withNewArtifact, FileSystem.node?_set _ _ _ _ (by decide), if_neg (by decide),
      hkept _ (by decide), hd]

/-- A machine on which the compiler makes the artifact and then fails. -/
def failingMachine : Machine where
  files := selfImportMachine.files
  environment := ⟨[]⟩
  programs := fun _ fs => (.exited (some 1) [] [], withNewArtifact fs)
  names := selfImportMachine.names
  clock := selfImportMachine.clock

/-- The text that imports itself is compiled by a compiler that fails, and its artifact is left. -/
theorem artifact_left_by_failing_compiler :
    failingMachine.files.IsTree ∧ NamesFit failingMachine ∧ ClockFits failingMachine ∧
      ∃ r m', (compileToBytes selfImportService Dependency.selfImport []
          { directory := some ⟨"/t"⟩ }).Ends failingMachine r m' ∧ (∀ bytes, r ≠ .ok bytes) ∧
        m'.files.node? ["t", "typst_n.pdf"] = some (.file []) := by
  have ht : failingMachine.files.IsTree := by decide
  have hn : NamesFit failingMachine := fun n => by
    rw [show failingMachine.names n = "n" from rfl]
    decide
  have hc : ClockFits failingMachine := fun n => by
    rw [show failingMachine.clock n = "0" from rfl]
    decide
  obtain ⟨r, m', h⟩ := (compileToBytes selfImportService Dependency.selfImport []
    { directory := some ⟨"/t"⟩ }).exists_ends failingMachine
  refine ⟨ht, hn, hc, r, m', h, ?_⟩
  have hfiles : failingMachine.files = Dependency.selfImporting.files := rfl
  have hnames : failingMachine.names = selfImportMachine.names := rfl
  have hcalled : m'.performed ≠ [] := by
    obtain ⟨r₁, m₁, hsource, ha, -⟩ := compileToBytes_ends h
    rw [ha.performed]
    exact calls_selfImport hfiles hnames hsource
  have hfailed : ¬Succeeded failingMachine m' := by
    rintro ⟨c, seen, stdout, stderr, -, houtcome⟩
    cases houtcome
  rcases artifact_left_unless_taken ht hn hc h with
    ⟨e, hopen, -⟩ | ⟨resolution, job, m₀, scratch, name, made, found, hopen, hartifact, hjob, hok, -, hleft⟩
  · obtain ⟨_, _, he, -⟩ := openJob_selfImport hfiles hnames hopen
    cases he
  refine ⟨fun bytes hr => hfailed (hok bytes hr).1, ?_⟩
  obtain ⟨_, _, he, -⟩ := openJob_selfImport hfiles hnames hopen
  obtain ⟨rfl, rfl⟩ := Prod.mk.inj (Except.ok.inj he)
  have hplace : scratch ++ [name] = ["t", "typst_n"] := by
    refine Path.eq_of_same_ofLocation hartifact.isName (by decide) ?_
    rw [← hartifact.directory]
    decide
  obtain ⟨rfl, hname⟩ : scratch = ["t"] ∧ [name] = ["typst_n"] := List.append_inj' hplace rfl
  obtain rfl : name = "typst_n" := by simpa using hname
  cases hjob.called with
  | uncalled hsame _ => exact absurd hsame hcalled
  | @called c seen _ _ hconfined hd hfound =>
    obtain rfl : withNewArtifact seen = found := hfound
    have hspares := spares_withNewArtifact (hconfined.isTree (hjob.opens.isTree ht)) hd
    have hcopy (other : Location) : ¬IsCopyPlace selfImportService.settings failingMachine
        (["t"] ++ ["typst_n"]) (withNewArtifact seen) other := by
      rintro ⟨hdebug, -⟩
      cases hdebug
    exact (hleft (fun htaken => hfailed htaken.1) hspares (by decide) (hcopy _) []).2
      (node?_withNewArtifact seen)

end Galley.Service
