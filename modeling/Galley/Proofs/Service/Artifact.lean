import Galley.Proofs.Service.CompilerView
import Galley.Proofs.Settings.Layers

/-! # Programs and artifacts under settings after updates

What is not acceptable is never taken from an update, and a format that one call asks for passes the same
check. So no compilation starts a program that a shell would act on, and what it makes in the scratch
directory is a file directly in it. -/

namespace Galley.Service

open Settings (Composes IsSafe Update isSafeFormat isSafeProgram layered)
open Workspace (NamesFit Opens inputEnd inputName jobStart)

variable {m m' : Machine} {s : Settings} {source : String} {bindings : Record}
  {directory : Option Path} {o : Options} {output : Option Path}

/-- A program that is not blank and holds nothing that a shell would act on. -/
structure IsPlainProgram (program : String) : Prop where
  notBlank : Text.isAllBlank program = false
  unmarked : ∀ c ∈ program.toList, c ∉ Settings.shellMetacharacters

/-- A format that only lengthens the name of a file. -/
structure IsPlainFormat (format : String) : Prop where
  notEmpty : format ≠ ""
  alphanumeric : ∀ c ∈ format.toList, Text.isAsciiAlphanumeric c = true

theorem isPlainProgram_of_isSafe {program : String} (h : isSafeProgram program = true) :
    IsPlainProgram program := by
  rw [isSafeProgram, Bool.and_eq_true, Bool.not_eq_true', Bool.not_eq_true'] at h
  refine ⟨h.1, fun c hc hm => ?_⟩
  have hnone := List.any_eq_false.1 h.2 c hc
  exact hnone (by simpa using hm)

theorem isPlainFormat_of_isSafe {format : String} (h : isSafeFormat format = true) :
    IsPlainFormat format := by
  rw [isSafeFormat, Bool.and_eq_true, Bool.not_eq_true'] at h
  exact ⟨fun he => by simp [he] at h, List.all_eq_true.1 h.2⟩

/-- The format of a call is plain, whatever the call asks for. -/
theorem isPlainFormat_effectiveFormat (h : IsSafe s) (o : Options) :
    IsPlainFormat (o.effectiveFormat s) := by
  rw [Options.effectiveFormat]
  split
  · split
    · next hsafe => exact isPlainFormat_of_isSafe hsafe
    · exact isPlainFormat_of_isSafe h.format
  · exact isPlainFormat_of_isSafe h.format

/-! ## The name of an artifact -/

theorem IsPlainFormat.not_mem {format : String} (h : IsPlainFormat format) {c : Char}
    (hc : Text.isAsciiAlphanumeric c = false) : c ∉ format.toList := fun hm => by
  rw [h.alphanumeric c hm] at hc
  cases hc

theorem isName_artifact {name format : String} (hn : Path.IsName (jobStart ++ name))
    (hf : '/' ∉ format.toList) : Path.IsName (jobStart ++ name ++ "." ++ format) := by
  have hname := hn.noSlash
  rw [String.toList_append, List.mem_append, not_or] at hname
  have htext : (jobStart ++ name ++ "." ++ format).toList =
      't' :: (['y', 'p', 's', 't', '_'] ++ (name.toList ++ '.' :: format.toList)) := by
    simp [jobStart]
  refine ⟨?_, by simp [htext, Path.isIdle], by simp [htext]⟩
  simp [htext, hname.2, hf]

/-- The artifact of a job gets the name of the job and the format, seen from the scratch directory. -/
theorem outputPath_inputName {w : Workspace} {scratch : Location} {name : String} (format : String)
    (hn : ∀ n ∈ scratch ++ [jobStart ++ name], Path.IsName n) :
    w.outputPath (.ofLocation (scratch ++ [jobStart ++ name] ++
        [inputName (scratch ++ [jobStart ++ name])])) format =
      w.directory.join (jobStart ++ name ++ "." ++ format) := by
  have hinput : inputName (scratch ++ [jobStart ++ name]) = jobStart ++ name ++ "." ++ "typ" := by
    simp [inputName, inputEnd, String.append_assoc]
  have hstem : (Path.ofLocation (scratch ++ [jobStart ++ name] ++
      [inputName (scratch ++ [jobStart ++ name])])).stem? = some (jobStart ++ name) := by
    refine @Path.stem?_of_extension _ _ "typ" ?_ (by simp [jobStart]) (by decide)
    rw [← hinput]
    refine Path.fileName?_ofLocation fun n hm => ?_
    rcases List.mem_append.1 hm with hm | hm
    · exact hn n hm
    · exact List.mem_singleton.1 hm ▸ Workspace.isName_inputName rfl hn
  rw [Workspace.outputPath, hstem, Option.getD_some]

/-- Seen from a directory, an artifact lies in it when its format holds no slash. -/
theorem join_artifact {scratch : Location} {name format : String}
    (hn : ∀ n ∈ scratch ++ [jobStart ++ name], Path.IsName n) (hf : '/' ∉ format.toList) :
    (Path.ofLocation scratch).join (jobStart ++ name ++ "." ++ format) =
      .ofLocation (scratch ++ [jobStart ++ name ++ "." ++ format]) :=
  Path.join_ofLocation (fun n hm => hn n (by simp [hm])) (isName_artifact (hn _ (by simp)) hf)

/-! ## Calls of the compiler -/

/-- A compilation calls no compiler and gives nothing, or it calls one, and gives at most what that was to
make. -/
theorem Course.calls {prepared : Except Failure Dependency.Resolution} {r : Except Failure Path}
    (ht : m.files.IsTree) (h : Course s o output m prepared r m') :
    (m'.performed = m.performed ∧ ∀ p, r ≠ .ok p) ∨ ∃ w job place m₁ seen target,
      OpensFor s m w job place m₁ ∧ (∀ n ∈ place, Path.IsName n) ∧
      target = o.target s w (.ofLocation (place ++ [inputName place])) output ∧
      m'.performed = m.performed ++
        [(command s o w (.ofLocation (place ++ [inputName place])) target, seen)] ∧
      ∀ p, r = .ok p → p = target := by
  cases h with
  | unopened ha _ => exact .inl ⟨ha.performed, by simp⟩
  | @dropped resolution w job place done m₁ m₂ _ copied _ ha hfor hrun hdrops =>
    obtain ⟨hholds, -, -, -⟩ := hfor.holds ht
    obtain ⟨m₃, hwrites, hend⟩ := hrun.written
    have hbefore : m₃.performed = m.performed := (ha.trans hwrites.alike).performed
    rcases hend with ⟨rfl, hnone⟩ | ⟨hinvokes, -⟩
    · exact .inl ⟨hdrops.alike.performed.trans hbefore, hnone⟩
    · have hcall := hdrops.alike.performed.trans hinvokes.performs.performed
      rw [hbefore] at hcall
      exact .inr ⟨w, job, place, m₁, m₃.files, _, hfor, hholds.directoryAt.direct.isName, rfl, hcall,
        fun p hp => Invokes.eq_target (hp ▸ hinvokes)⟩

/-- A command is to make a file directly in the canonical scratch directory, with the name of the job whose
input it gets, and a format. -/
structure MakesArtifact (s : Settings) (o : Options) (before : FileSystem) (c : Command)
    (artifact : Path) : Prop where
  format : IsPlainFormat (o.effectiveFormat s)
  place : ∃ made scratch job, Opens s before made ∧
    made.canonicalize s.workingDirectory = .ok (.ofLocation scratch) ∧
    Path.IsName (job ++ "." ++ o.effectiveFormat s) ∧
    artifact = .ofLocation (scratch ++ [job ++ "." ++ o.effectiveFormat s]) ∧
    c.arguments.take 3 =
      ["compile", (Path.ofLocation (scratch ++ [job, job ++ ".typ"])).text, artifact.text]

/-- A call performs nothing and gives nothing, or it performs one command that makes an artifact, and what
it gives comes from there. -/
inductive Makes {α : Type} (s : Settings) (o : Options) (gives : Path → α → Prop) (m : Machine)
    (r : Except Failure α) (m' : Machine) : Prop where
  | uncalled : m'.performed = m.performed → (∀ a, r ≠ .ok a) → Makes s o gives m r m'
  | called {c : Command} {seen : FileSystem} {artifact : Path} :
      m'.performed = m.performed ++ [(c, seen)] → MakesArtifact s o m.files c artifact →
      (∀ a, r = .ok a → gives artifact a) → Makes s o gives m r m'

theorem compileSource_makes {r : Except Failure Path} (ht : m.files.IsTree) (hn : NamesFit m)
    (hs : IsSafe s) (h : (compileSource s source bindings directory none o).Ends m r m') :
    Makes s o (fun artifact p => p = artifact) m r m' := by
  rcases (compileSource_course ht hn h).calls ht with
    ⟨hsame, hnone⟩ | ⟨w, job, place, m₁, seen, target, hfor, hnames, htarget, hcall, hresult⟩
  · exact .uncalled hsame hnone
  have hformat := isPlainFormat_effectiveFormat hs o
  have hslash : '/' ∉ (o.effectiveFormat s).toList := hformat.not_mem (by decide)
  obtain ⟨made, scratch, name, hopens, hleads, hw, rfl⟩ := hfor.scratch
  have hname : Path.IsName (jobStart ++ name) := hnames _ (by simp)
  have hpath : target = .ofLocation (scratch ++ [jobStart ++ name ++ "." ++ o.effectiveFormat s]) := by
    rw [htarget, Options.target, Option.getD_none, outputPath_inputName _ hnames, hw,
      join_artifact hnames hslash]
  rw [hw] at hleads
  refine .called hcall ⟨hformat, made, scratch, jobStart ++ name, hopens, hleads,
    isName_artifact hname hslash, hpath, ?_⟩ hresult
  simp [command, Command.compile, Command.withRoot, Command.withFontPaths, Command.add, inputName,
    inputEnd]

/-- The program that a compilation starts is that of the settings. -/
theorem compileSource_program {r : Except Failure Path} (ht : m.files.IsTree) (hn : NamesFit m)
    (h : (compileSource s source bindings directory output o).Ends m r m') :
    m'.performed = m.performed ∨
      ∃ c seen, m'.performed = m.performed ++ [(c, seen)] ∧ c.program = s.program := by
  rcases (compileSource_course ht hn h).calls ht with
    ⟨hsame, -⟩ | ⟨w, job, place, m₁, seen, target, -, -, -, hcall, -⟩
  · exact .inl hsame
  · exact .inr ⟨_, seen, hcall, rfl⟩

/-- What a call gives that compiles to octets: it reads them where the artifact is. -/
def ReadsArtifact (s : Settings) (source : String) (bindings : Record) (o : Options) (m : Machine)
    (artifact : Path) (bytes : Text.Bytes) : Prop :=
  ∃ m₁, (compileSource s source bindings o.directory none o).Ends m (.ok artifact) m₁ ∧
    m₁.files.read artifact = .ok bytes

theorem compileToBytes_makes {r : Except Failure Text.Bytes} (ht : m.files.IsTree) (hn : NamesFit m)
    (hs : IsSafe s) (h : (compileToBytes ⟨s⟩ source bindings o).Ends m r m') :
    Makes s o (ReadsArtifact s source bindings o m) m r m' := by
  obtain ⟨r₁, m₁, h, ha, hreads⟩ := compileToBytes_ends h
  cases compileSource_makes ht hn hs h with
  | uncalled hsame hnone =>
    refine .uncalled (ha.performed.trans hsame) fun bytes hb => ?_
    obtain ⟨p, hp, -⟩ := hreads bytes hb
    exact hnone p hp
  | called hcall hmakes hresult =>
    refine .called (ha.performed.trans hcall) hmakes fun bytes hb => ?_
    obtain ⟨p, rfl, hread⟩ := hreads bytes hb
    obtain rfl := hresult p rfl
    exact ⟨m₁, h, hread⟩

/-- Updates are composed field by field. Under the settings that come of them, no call that compiles starts
a program that is blank or that a shell would act on, and what a call makes in the scratch directory is a
file directly in it, with the name of its job and a format of ASCII letters and digits. -/
theorem layered_settings_compile_safely (env : Environment) (base : Path) (us : List Update) :
    Composes env (.default base) us (layered env (.default base) us) ∧
    ∀ m m' : Machine, m.files.IsTree → NamesFit m →
      (∀ x r, (Compilation.run ⟨layered env (.default base) us⟩ x).Ends m r m' →
        m'.performed = m.performed ∨
          ∃ c seen, m'.performed = m.performed ++ [(c, seen)] ∧ IsPlainProgram c.program) ∧
      (∀ source bindings o r,
        (compileToFile ⟨layered env (.default base) us⟩ source bindings o).Ends m r m' →
        Makes (layered env (.default base) us) o (fun artifact p => p = artifact) m r m') ∧
      ∀ source bindings o r,
        (compileToBytes ⟨layered env (.default base) us⟩ source bindings o).Ends m r m' →
        Makes (layered env (.default base) us) o
          (ReadsArtifact (layered env (.default base) us) source bindings o m) m r m' := by
  have hsafe : IsSafe (layered env (.default base) us) := (Settings.isSafe_default base).layered env us
  refine ⟨Settings.composes_layered env _ us, fun m m' ht hn => ⟨fun x r h => ?_, ?_, ?_⟩⟩
  · rcases Compilation.run_ends h with
      hsame | ⟨source, bindings, directory, output, o, m₁, r₂, m₂, -, ha, hf, h, ha'⟩
    · exact .inl hsame
    rcases compileSource_program (hf ▸ ht) (fun n => ha.names ▸ hn n) h with
      hsame | ⟨c, seen, hcall, hprogram⟩
    · exact .inl (ha'.performed.trans (hsame.trans ha.performed))
    · refine .inr ⟨c, seen, ?_, hprogram ▸ isPlainProgram_of_isSafe hsafe.program⟩
      rw [ha'.performed, hcall, ha.performed]
  · exact fun source bindings o r h => compileSource_makes ht hn hsafe h
  · exact fun source bindings o r h => compileToBytes_makes ht hn hsafe h

/-- An update with a program and a format that are not acceptable. -/
def unsafeUpdate : Update where
  program := some "typst; id"
  workingDirectory := some "/t"
  format := some "../pdf"

theorem layered_unsafeUpdate :
    layered ⟨[]⟩ (.default ⟨"/t"⟩) [unsafeUpdate] = selfImportService.settings := by
  have hexpand : Settings.expand ⟨[]⟩ "/t" = ⟨"/t"⟩ :=
    Settings.expand_of_plain (by decide) (by decide)
  have hprogram : Settings.acceptedProgram "typst; id" = Settings.defaultProgram := by decide
  have hformat : Settings.acceptedFormat "../pdf" = Settings.defaultFormat := by decide
  simp only [Settings.layered_cons, Settings.layered_nil, Settings.apply, Settings.updatedDirectory,
    unsafeUpdate, hexpand, hprogram, hformat, Option.map_some, Option.map_none, Option.getD_some,
    Option.getD_none]
  rfl

/-- After an update with a program and a format that are not acceptable, the text that imports itself is
compiled by the default program; the format that the call asks for is not acceptable either. -/
theorem unsafeUpdate_compiles_safely :
    selfImportMachine.files.IsTree ∧ NamesFit selfImportMachine ∧
      ∃ r m' c seen artifact, (compileToFile ⟨layered ⟨[]⟩ (.default ⟨"/t"⟩) [unsafeUpdate]⟩
          Dependency.selfImport [] { directory := some ⟨"/t"⟩, format := some "a/b" }).Ends
            selfImportMachine r m' ∧
        m'.performed = [(c, seen)] ∧ IsPlainProgram c.program ∧
        MakesArtifact (layered ⟨[]⟩ (.default ⟨"/t"⟩) [unsafeUpdate])
          { directory := some ⟨"/t"⟩, format := some "a/b" } selfImportMachine.files c artifact := by
  have ht : selfImportMachine.files.IsTree := by decide
  have hn : NamesFit selfImportMachine := fun n => by
    rw [show selfImportMachine.names n = "n" from rfl]
    decide
  obtain ⟨r', m', h⟩ := (Compilation.run ⟨layered ⟨[]⟩ (.default ⟨"/t"⟩) [unsafeUpdate]⟩ (.toFile
    Dependency.selfImport [] { directory := some ⟨"/t"⟩, format := some "a/b" })).exists_ends
    selfImportMachine
  obtain ⟨r, hsource⟩ := ends_of_discarded h
  have hcalled : m'.performed ≠ [] := performed_selfImport (layered_unsafeUpdate ▸ hsource)
  obtain ⟨hprogram, hfile, -⟩ :=
    (layered_settings_compile_safely ⟨[]⟩ ⟨"/t"⟩ [unsafeUpdate]).2 selfImportMachine m' ht hn
  refine ⟨ht, hn, r, m', ?_⟩
  rcases hprogram _ r' h with hsame | ⟨c, seen, hcall, hplain⟩
  · exact absurd hsame hcalled
  cases hfile _ _ _ r hsource with
  | uncalled hsame _ => exact absurd hsame hcalled
  | @called c' seen' artifact hcall' hmakes _ =>
    obtain ⟨rfl, rfl⟩ : c' = c ∧ seen' = seen := by
      simpa using hcall'.symm.trans hcall
    exact ⟨c', seen', artifact, hsource, hcall, hplain, hmakes⟩

end Galley.Service
