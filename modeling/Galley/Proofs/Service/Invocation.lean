import Galley.Proofs.Compiler.Arguments
import Galley.Proofs.Path.Extension
import Galley.Proofs.Service.Alone
import Galley.Proofs.Service.Artifact

/-! # What the compiler is told

Every call that reaches the compiler tells it the entrypoint of its job, where the artifact goes, one root,
and all font directories in their order. The paths of the two files are absolute, so neither looks like a
flag, and the arguments are read back as what they say. -/

namespace Galley.Service

open Workspace (NamesFit Opens inputEnd inputName jobStart)

variable {m m' : Machine} {service : Service} {s : Settings} {fs : FileSystem} {o : Options}

/-! ## Absolute paths -/

theorem isAbsolute_absolute (fs : FileSystem) (p : Path) : (absolute fs p).isAbsolute = true :=
  Path.isAbsolute_join_of_isAbsolute (Path.isAbsolute_ofLocation _) p.text

theorem isAbsolute_defaultOutput {input file : Path} (h : fs.canonicalize input = .ok file)
    (format : String) : (defaultOutput file format).isAbsolute = true := by
  obtain ⟨place, node, rfl, hdirect, -⟩ := FileSystem.direct_of_canonicalize h
  rw [defaultOutput]
  split <;> exact Path.isAbsolute_withExtension_ofLocation hdirect.isName _

/-- Where a call wants its artifact is an absolute path, however it was written. -/
theorem Compilation.Wants.isAbsolute {x : Compilation} {output : Option Path}
    (h : x.Wants s fs output) {p : Path} (hp : output = some p) : p.isAbsolute = true := by
  cases h with
  | toFile | toBytes => cases hp
  | fileToFile output bindings o hfile =>
    obtain rfl := Option.some.inj hp
    cases output with
    | none => exact isAbsolute_defaultOutput hfile _
    | some output => exact isAbsolute_absolute fs output

/-! ## The arguments -/

def Compilation.root (s : Settings) (x : Compilation) : Path :=
  x.options.root.getD (s.root.getD s.basePath)

def Compilation.fontPaths (s : Settings) (x : Compilation) : List Path :=
  s.fontPaths ++ x.options.fontPaths

/-- The files that a call names: the entrypoint of a job in the canonical scratch directory, and where the
artifact is wanted, or else a name in that directory. -/
def Names (s : Settings) (x : Compilation) (before : FileSystem) (input output : Path) : Prop :=
  ∃ made scratch job wanted, Opens s before made ∧
    made.canonicalize s.workingDirectory = .ok (.ofLocation scratch) ∧
    input = .ofLocation (scratch ++ [job, job ++ ".typ"]) ∧
    x.Wants s before wanted ∧
    output = wanted.getD ((Path.ofLocation scratch).join (job ++ "." ++ x.options.effectiveFormat s))

theorem Names.isAbsolute_input {x : Compilation} {input output : Path}
    (h : Names s x fs input output) : input.isAbsolute = true := by
  obtain ⟨-, -, -, -, -, -, rfl, -, -⟩ := h
  exact Path.isAbsolute_ofLocation _

theorem Names.isAbsolute_output {x : Compilation} {input output : Path}
    (h : Names s x fs input output) : output.isAbsolute = true := by
  obtain ⟨-, scratch, job, wanted, -, -, -, hwants, rfl⟩ := h
  cases wanted with
  | none => exact Path.isAbsolute_join_of_isAbsolute (Path.isAbsolute_ofLocation _) _
  | some p => exact hwants.isAbsolute rfl

theorem arguments_command (w : Workspace) (input output : Path) :
    (command s o w input output).arguments =
      ["compile", input.text, output.text, "--root", (o.effectiveRoot s).text] ++
        (s.fontPaths ++ o.fontPaths).flatMap fun d => ["--font-path", d.text] := by
  simp [command, Command.compile, Command.withRoot, Command.withFontPaths, Command.add]

/-- A job that was opened names its entrypoint and, where nothing else is wanted, its artifact. -/
theorem names_of_opensFor {x : Compilation} {w : Workspace} {job : Workspace.Job} {place : Location}
    {wanted : Option Path} (hfor : OpensFor s m w job place m') (hnames : ∀ n ∈ place, Path.IsName n)
    (hwants : x.Wants s m.files wanted) :
    Names s x m.files (.ofLocation (place ++ [inputName place]))
      (x.options.target s w (.ofLocation (place ++ [inputName place])) wanted) := by
  obtain ⟨made, scratch, name, hopens, hleads, hw, rfl⟩ := hfor.scratch
  refine ⟨made, scratch, jobStart ++ name, wanted, hopens, hw ▸ hleads, ?_, hwants, ?_⟩
  · simp [inputName, inputEnd]
  · rw [Options.target, outputPath_inputName _ hnames, hw]

/-- Whatever stands in its options, its settings and its paths, a call that reaches the compiler tells it
the entrypoint of the job, where the artifact goes, its root, and the font directories of the settings and
then its own, each once. Both files are written as absolute paths, and the arguments say this and nothing
else. -/
theorem compiler_is_told_all {x : Compilation} {r : Except Failure Unit} (ht : m.files.IsTree)
    (hn : NamesFit m) (h : (x.run service).Ends m r m') :
    m'.performed = m.performed ∨ ∃ c seen input output,
      m'.performed = m.performed ++ [(c, seen)] ∧
      Names service.settings x m.files input output ∧
      input.isAbsolute = true ∧ output.isAbsolute = true ∧
      c.arguments = ["compile", input.text, output.text, "--root", (x.root service.settings).text] ++
        (x.fontPaths service.settings).flatMap (fun d => ["--font-path", d.text]) ∧
      ∀ i, Invocation.read? c.arguments = some i ↔
        i = ⟨input.text, output.text, (x.root service.settings).text,
          (x.fontPaths service.settings).map Path.text⟩ := by
  rcases Compilation.run_wants h with
    hsame | ⟨source, bindings, directory, wanted, m₁, r₂, m₂, -, hwants, ha, hf, h, ha'⟩
  · exact .inl hsame
  have hn₁ : NamesFit m₁ := fun n => ha.names ▸ hn n
  rcases (compileSource_course (hf ▸ ht) hn₁ h).calls (hf ▸ ht) with
    ⟨hsame, -⟩ | ⟨w, job, place, m₃, seen, target, hfor, hnames, rfl, hcall, -⟩
  · exact .inl (ha'.performed.trans (hsame.trans ha.performed))
  have hfiles := names_of_opensFor hfor hnames (hf ▸ hwants)
  rw [hf] at hfiles
  rw [ha.performed, ← ha'.performed] at hcall
  refine .inr ⟨_, seen, _, _, hcall, hfiles, hfiles.isAbsolute_input, hfiles.isAbsolute_output,
    arguments_command w _ _, fun i => ?_⟩
  rw [Invocation.read?_eq_some_iff, arguments_command]
  have harguments : ∀ input output : Path, ["compile", input.text, output.text, "--root",
      (x.options.effectiveRoot service.settings).text] ++
        (service.settings.fontPaths ++ x.options.fontPaths).flatMap (fun d => ["--font-path", d.text]) =
      Invocation.arguments ⟨input.text, output.text, (x.root service.settings).text,
        (x.fontPaths service.settings).map Path.text⟩ := fun input output => by
    rw [Invocation.arguments, List.flatMap_map]
    rfl
  rw [harguments, ← Invocation.read?_eq_some_iff, Invocation.read?_arguments, Option.some.injEq]
  exact eq_comm

/-- A call whose output, root and font directories look like flags. -/
def flagLikeCall : Compilation :=
  .fileToFile ⟨"/t/a.typ"⟩ (some ⟨"-o"⟩) []
    { root := some ⟨"--font-path"⟩, fontPaths := [⟨"--root"⟩, ⟨""⟩] }

/-- The compiler is told what that call says. -/
theorem compiler_is_told_flagLike :
    letterFiles.IsTree ∧ NamesFit (letterMachine selfImportMachine.programs) ∧
      ∃ r m', (flagLikeCall.run selfImportService).Ends (letterMachine selfImportMachine.programs) r m' ∧
        ∃ c seen input, m'.performed = [(c, seen)] ∧
          c.arguments = ["compile", input, "/t/-o", "--root", "--font-path", "--font-path", "--root",
            "--font-path", ""] ∧
          Invocation.read? c.arguments = some ⟨input, "/t/-o", "--font-path", ["--root", ""]⟩ := by
  obtain ⟨r, m', h⟩ :=
    (flagLikeCall.run selfImportService).exists_ends (letterMachine selfImportMachine.programs)
  refine ⟨isTree_letter, namesFit_letter, r, m', h, ?_⟩
  obtain ⟨r', hfile⟩ := ends_of_discarded h
  rcases compiler_is_told_all isTree_letter namesFit_letter h with
    hsame | ⟨c, seen, input, output, hcall, hnames, -, -, harguments, hread⟩
  · exact absurd hsame (performed_letter hfile)
  have houtput : output = ⟨"/t/-o"⟩ := by
    obtain ⟨made, scratch, job, wanted, -, -, -, hwants, rfl⟩ := hnames
    cases hwants
    exact (by decide : absolute letterFiles ⟨"-o"⟩ = ⟨"/t/-o"⟩)
  subst houtput
  exact ⟨c, seen, input.text, hcall, harguments, (hread _).2 rfl⟩

end Galley.Service
