import Galley.Proofs.Service.CompilerView

/-! # Texts that import nothing

Such a text is prepared without files of its own, so all that its compilation takes is room for a job in
the scratch directory. With that, the compiler is called. -/

namespace Galley.Service

open Dependency (Reachable Resolution Surroundings exists_resolve materialized_of_resolve)
open Workspace (Job NamesFit drop_ends inputName jobStart writeInput_of_free)

variable {m m' : Machine} {s : Settings} {source rendered : String} {bindings : Record}
  {directory output : Option Path} {o : Options} {scratch : Location} {name : String}

theorem not_reachable_of_noImports {around : Surroundings} {entrypoint : String} {file : Path}
    (hd : Typst.Import.directives entrypoint = []) :
    ¬Reachable around entrypoint directory file := by
  intro h
  induction h with
  | direct hi =>
    obtain ⟨d, hmem, -⟩ := hi
    simp [hd] at hmem
  | through _ _ _ ih => exact ih

/-- A text that imports nothing once it is rendered needs no files. -/
theorem exists_prepared_of_noImports (fs : FileSystem)
    (hr : Template.render entrypointName source bindings = .ok rendered)
    (hd : Typst.Import.directives (Typst.DataImport.expand rendered bindings) = []) :
    ∃ resolution, prepared s fs source bindings directory = .ok resolution ∧ resolution.files = [] := by
  obtain ⟨resolution, h, -⟩ := @exists_resolve ⟨fs, .ofSettings s, bindings⟩
    (Typst.DataImport.expand rendered bindings) directory
    fun file hfile => absurd hfile (not_reachable_of_noImports hd)
  refine ⟨resolution, by rw [prepared, hr]; exact h, List.eq_nil_iff_forall_not_mem.2 fun f hf => ?_⟩
  exact not_reachable_of_noImports hd (materialized_of_resolve h hf).1

/-- There is room for a job: the scratch directory is there, the debug directory too if it is used, and the
name that is drawn for the job is free. -/
structure HasRoom (s : Settings) (m : Machine) (scratch : Location) (name : String) : Prop where
  isTree : m.files.IsTree
  debugAt : s.debug = true → m.files.isDirectory s.debugDirectory = true
  path : s.workingDirectory = .ofLocation scratch
  directoryAt : m.files.IsDirectoryAt scratch
  drawn : ∀ n, jobStart ++ m.names n = name
  isName : Path.IsName name
  free : m.files.node? (scratch ++ [name]) = none
  inputFits : Text.utf8Size (inputName (scratch ++ [name])).toList ≤ FileSystem.nameLimit
  walkable : ∀ place ∈ [scratch, scratch ++ [name], scratch ++ [name] ++ [inputName (scratch ++ [name])]],
    FileSystem.IsWalkable (.ofLocation place)

namespace HasRoom

def workspace (s : Settings) (scratch : Location) : Workspace :=
  ⟨.ofLocation scratch, if s.debug then some s.debugDirectory else none⟩

def job (s : Settings) (scratch : Location) (name : String) : Job where
  workspace := workspace s scratch
  directory := .ofLocation (scratch ++ [name])

/-- The files with the directory of the job. -/
def opened (fs : FileSystem) (scratch : Location) (name : String) : FileSystem :=
  fs.set (scratch ++ [name]) .directory

/-- The files with the directory of the job and an entrypoint in it. -/
def written (fs : FileSystem) (scratch : Location) (name entrypoint : String) : FileSystem :=
  (opened fs scratch name).set (scratch ++ [name] ++ [inputName (scratch ++ [name])])
    (.file (Text.Utf8.encode entrypoint))

theorem of_alike {m₁ : Machine} (h : HasRoom s m scratch name) (hf : m₁.files = m.files)
    (ha : m.Alike m₁) : HasRoom s m₁ scratch name :=
  ⟨hf ▸ h.isTree, hf ▸ h.debugAt, h.path, hf ▸ h.directoryAt, ha.names ▸ h.drawn, h.isName, hf ▸ h.free,
    h.inputFits, h.walkable⟩

theorem isName_place (h : HasRoom s m scratch name) : ∀ n ∈ scratch ++ [name], Path.IsName n := by
  simpa [or_imp, forall_and] using ⟨h.directoryAt.direct.isName, h.isName⟩

theorem isName_inputName (h : HasRoom s m scratch name) :
    Path.IsName (inputName (scratch ++ [name])) := by
  obtain ⟨rest, hrest⟩ : ∃ rest, name = jobStart ++ rest := ⟨_, (h.drawn 0).symm⟩
  subst hrest
  exact Workspace.isName_inputName rfl h.isName_place

theorem nameFits (h : HasRoom s m scratch name) :
    Text.utf8Size name.toList ≤ FileSystem.nameLimit := by
  refine Nat.le_trans ?_ h.inputFits
  simp [inputName, Text.utf8Size_append]

theorem ofSettings_ends (h : HasRoom s m scratch name) :
    (Workspace.ofSettings s).Ends m (.ok (workspace s scratch)) m := by
  rw [Workspace.ofSettings, h.path]
  refine Workspace.openAt_of_directory h.directoryAt (h.walkable scratch (by simp)) fun debug hd => ?_
  split at hd
  · next hdebug => exact Option.some.inj hd ▸ h.debugAt hdebug
  · cases hd

theorem begin_ends (h : HasRoom s m scratch name) {r : Except Failure Job}
    (hb : (workspace s scratch).begin.Ends m r m') :
    r = .ok (job s scratch name) ∧ m'.files = opened m.files scratch name ∧
      m'.performed = m.performed := by
  obtain ⟨rfl, rfl⟩ := Run.Ends.unique hb (Workspace.begin_of_free h.directoryAt rfl (h.drawn _) h.isName
    h.nameFits (h.walkable _ (by simp)) h.free)
  exact ⟨rfl, rfl, rfl⟩

theorem holds (h : HasRoom s m scratch name) :
    (job s scratch name).Holds (workspace s scratch) (scratch ++ [name]) (opened m.files scratch name) := by
  refine ⟨rfl, rfl, by simp [Job.tracked, job], ?_, fun next node hn => ?_⟩
  · refine FileSystem.directoryAt_of_makeDirectory h.directoryAt h.isName ?_
    exact FileSystem.makeDirectory_child_of_free h.directoryAt h.isName h.nameFits
      (h.walkable _ (by simp)) h.free
  · rw [opened, FileSystem.node?_set _ _ _ _ (by simp), if_neg (by simp),
      h.isTree.none_beneath h.free (List.prefix_append _ _)] at hn
    cases hn

theorem openJob_ends (h : HasRoom s m scratch name) {resolution : Resolution}
    (hp : prepared s m.files source bindings directory = .ok resolution)
    {r : Except Failure (Resolution × Job)} (hopen : (openJob s source bindings directory).Ends m r m') :
    r = .ok (resolution, job s scratch name) ∧
      m'.files = opened m.files scratch name ∧ m'.performed = m.performed := by
  rw [openJob, Attempt.ends_bind] at hopen
  rcases hopen with ⟨e, h', -⟩ | ⟨resolution', m₁, h', hopen⟩
  · cases (preprocess_ends h').1.trans hp
  obtain ⟨he, ha, hf⟩ := preprocess_ends h'
  obtain rfl := Except.ok.inj (he.trans hp)
  have hroom := h.of_alike hf ha
  rw [Attempt.ends_bind] at hopen
  rcases hopen with ⟨e, h', -⟩ | ⟨w, m₂, h', hopen⟩
  · cases (hroom.ofSettings_ends.unique h').1
  obtain ⟨hw, rfl⟩ := hroom.ofSettings_ends.unique h'
  obtain rfl := Except.ok.inj hw
  rw [Attempt.ends_bind] at hopen
  rcases hopen with ⟨e, h', -⟩ | ⟨job, m₃, h', hpure⟩
  · cases (hroom.begin_ends h').1
  obtain ⟨hj, hfiles, hperformed⟩ := hroom.begin_ends h'
  obtain rfl := Except.ok.inj hj
  obtain ⟨rfl, rfl⟩ := Attempt.ends_pure.1 hpure
  exact ⟨rfl, hf ▸ hfiles, hperformed.trans ha.performed⟩

/-- Into a new job, an entrypoint alone is written. -/
theorem materialize_ends (h : HasRoom s m scratch name) {m₁ : Machine} {resolution : Resolution}
    {done : Job × Except Failure Unit} (hf : m₁.files = opened m.files scratch name)
    (hfiles : resolution.files = [])
    (hrun : Run.Ends (materialize (job s scratch name) resolution) m₁ done m') :
    done.2 = .ok () ∧ m₁.Alike m' ∧
      m'.files = written m.files scratch name resolution.entrypoint := by
  simp only [materialize, hfiles, writeDependencies, Run.ends_bind] at hrun
  obtain ⟨⟨job₁, r₁⟩, m₂, hnone, hrun⟩ := hrun
  obtain ⟨hsame, rfl⟩ := Run.ends_pure.1 hnone
  obtain ⟨rfl, rfl⟩ := Prod.mk.inj hsame
  simp only [Run.ends_bind, Run.ends_run] at hrun
  obtain ⟨r, m₃, hwrite, hrun⟩ := hrun
  have hbelow : (opened m.files scratch name).node?
      (scratch ++ [name] ++ [inputName (scratch ++ [name])]) = none := by
    rw [opened, FileSystem.node?_set _ _ _ _ (by simp), if_neg (by simp),
      h.isTree.none_beneath h.free (List.prefix_append _ _)]
  obtain ⟨job', rfl⟩ := writeInput_of_free (hf ▸ h.holds) (by simp) h.isName_inputName h.inputFits
    (h.walkable _ (by simp)) (hf ▸ hbelow) hwrite
  obtain ⟨-, -, hwrites⟩ := Workspace.writeInput_ends (hf ▸ h.holds) (by simp) h.isName_inputName hwrite
  obtain ⟨hone, hputs⟩ := hwrites job' rfl
  obtain ⟨rfl, rfl⟩ := Run.ends_pure.1 hrun
  exact ⟨rfl, hone.alike, by rw [hputs.after, hf, written]⟩

end HasRoom

/-- Where there is room for a job, a text that needs no files reaches the compiler, which finds it alone. -/
theorem calls_of_hasRoom {resolution : Resolution} {r : Except Failure Path}
    (hroom : HasRoom s m scratch name)
    (hp : prepared s m.files source bindings directory = .ok resolution) (hfiles : resolution.files = [])
    (h : (compileSource s source bindings directory output o).Ends m r m') :
    ∃ c, m'.performed =
      m.performed ++ [(c, HasRoom.written m.files scratch name resolution.entrypoint)] := by
  rcases compileSource_ends h with
    ⟨e, hopen, -⟩ | ⟨resolution', job, m₁, done, m₂, hopen, hrun, hdrop, -⟩
  · cases (hroom.openJob_ends hp hopen).1
  obtain ⟨he, hopened, hperformed⟩ := hroom.openJob_ends hp hopen
  obtain ⟨rfl, rfl⟩ := Prod.mk.inj (Except.ok.inj he)
  simp only [runJob, Run.ends_bind] at hrun
  obtain ⟨⟨job', r'⟩, m₃, hmaterialize, hrun⟩ := hrun
  obtain ⟨rfl, ha, hwritten⟩ := hroom.materialize_ends hopened hfiles hmaterialize
  simp only [Run.ends_bind, Run.ends_run, Run.ends_pure] at hrun
  obtain ⟨_, _, hinvoke, rfl, rfl⟩ := hrun
  obtain ⟨-, hinvokes⟩ := invoke_ends hinvoke
  obtain ⟨copied, hdrops⟩ := drop_ends hdrop
  rw [hdrops.alike.performed, hinvokes.performs.performed, ha.performed, hperformed, hwritten]
  exact ⟨_, rfl⟩

/-- A file that is read is compiled, to its target. -/
theorem compileFile_of_isFileAt {service : Service} {input file : Path} {r : Except Failure Path}
    (hi : m.files.isFile input = true) (hc : m.files.canonicalize input = .ok file)
    (hs : m.files.readText file = .ok source)
    (h : (compileFile service input output bindings o).Ends m r m') :
    ∃ m₁, m.Alike m₁ ∧ m₁.files = m.files ∧
      (compileSource service.settings source bindings file.parent?
        (some (o.fileTarget service.settings m.files file output)) o).Ends m₁ r m' := by
  simp only [compileFile, Attempt.ends_liftM_bind, Machine.ends_getFiles] at h
  obtain ⟨_, _, ⟨rfl, rfl⟩, h⟩ := h
  rw [if_neg (by simp [hi])] at h
  simp only [hc, hs, Attempt.ends_lift_bind, Machine.ends_absorb] at h
  obtain ⟨format, m₁, ⟨rfl, rfl⟩, h⟩ := h
  refine ⟨_, ?_, ?_, h⟩
  · exact ⟨rfl, rfl, rfl, rfl⟩
  · rfl

/-! ## A letter and a link to it -/

/-- A text that imports nothing and, next to it, a link to it under the name of its artifact. -/
def letterFiles : FileSystem where
  entries := [(["t"], .directory), (["t", "a.typ"], .file (Text.Utf8.encode "x")),
    (["t", "a.pdf"], .link "a.typ")]
  current := ["t"]
  distinct := by decide

/-- A machine with that text. -/
def letterMachine (programs : Command → FileSystem → Outcome × FileSystem) : Machine where
  files := letterFiles
  environment := ⟨[]⟩
  programs := programs
  names := fun _ => "n"
  clock := fun _ => "0"

variable {programs : Command → FileSystem → Outcome × FileSystem}

theorem isTree_letter : letterFiles.IsTree := by decide

theorem namesFit_letter : NamesFit (letterMachine programs) := fun n => by
  rw [show (letterMachine programs).names n = "n" from rfl]
  decide

theorem directoryAt_letter : letterFiles.IsDirectoryAt ["t"] :=
  ⟨(FileSystem.Direct.root _).append rfl (by decide) (by decide), rfl⟩

theorem direct_letter : letterFiles.Direct ["t", "a.typ"] :=
  directoryAt_letter.direct.append rfl (by decide) (by decide)

theorem hasRoom_letter : HasRoom selfImportService.settings (letterMachine programs) ["t"] "typst_n" where
  isTree := isTree_letter
  debugAt := nofun
  path := by decide
  directoryAt := directoryAt_letter
  drawn := fun _ => show jobStart ++ "n" = "typst_n" by decide
  isName := by decide
  free := rfl
  inputFits := by decide
  walkable := by decide

/-- Whatever the compiler does, it is called for that file. -/
theorem performed_letter {r : Except Failure Path}
    (h : (compileFile selfImportService ⟨"/t/a.typ"⟩ output [] o).Ends (letterMachine programs) r m') :
    m'.performed ≠ [] := by
  have hpath : (⟨"/t/a.typ"⟩ : Path) = .ofLocation ["t", "a.typ"] := by decide
  have hwalkable : FileSystem.IsWalkable (.ofLocation ["t", "a.typ"]) := by decide
  have hnode : letterFiles.node? ["t", "a.typ"] = some (.file (Text.Utf8.encode "x")) := rfl
  have hstatus := FileSystem.status_of_direct direct_letter hnode (by simp) hwalkable
  have hread : letterFiles.readText (.ofLocation ["t", "a.typ"]) = .ok "x" := by
    have hdecode : Text.Utf8.decode? (Text.Utf8.encode "x") = some "x" := by decide +kernel
    simp only [FileSystem.readText, FileSystem.read_eq_ok_iff.2 hstatus, bind, Except.bind, hdecode]
  rw [hpath] at h
  obtain ⟨m₁, ha, hf, h⟩ := compileFile_of_isFileAt (by rw [FileSystem.isFile]; exact hstatus ▸ rfl)
    (FileSystem.canonicalize_of_direct direct_letter hnode (by simp) hwalkable) hread h
  have hrender : Template.render entrypointName "x" [] = .ok "x" := by decide +kernel
  obtain ⟨resolution, hp, hfiles⟩ := exists_prepared_of_noImports (s := selfImportService.settings)
    m₁.files hrender (by decide +kernel)
  obtain ⟨c, hcall⟩ := calls_of_hasRoom (hasRoom_letter.of_alike hf ha) hp hfiles h
  simp [hcall]

end Galley.Service
