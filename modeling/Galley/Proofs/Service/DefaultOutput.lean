import Galley.Proofs.Path.Extension
import Galley.Proofs.Service.Cleanup
import Galley.Proofs.Service.Invocation

/-! # The file beside its artifact

A file that is compiled without a word about its artifact gets it next to itself, under another name. So
what the compiler writes there changes the file only where that name is a link which leads to the file. -/

namespace Galley.Service

open Workspace (ClockFits Confined LeavesNothing NamesFit Opens Spares)

variable {m m' : Machine} {service : Service} {s : Settings} {bindings : Record} {o : Options}
  {input output : Path} {place directory : Location} {name format : String} {content : Text.Bytes}
  {made found seen : FileSystem} {c : Command}

/-! ## The name of the default artifact -/

theorem defaultOutput_ofLocation (hf : IsPlainFormat format)
    (h : ∀ n ∈ directory ++ [name], Path.IsName n) :
    ∃ other, other ≠ name ∧ Path.IsName other ∧
      defaultOutput (.ofLocation (directory ++ [name])) format = .ofLocation (directory ++ [other]) := by
  obtain ⟨stem, hne, hcases, hpath⟩ := Path.exists_withExtension h
  have hname : Path.IsName name := h name (by simp)
  have hslash : '/' ∉ format.toList := hf.not_mem (by decide)
  have hplain : (Path.ofLocation (directory ++ [name])).withExtension format =
      .ofLocation (directory ++ [stem ++ "." ++ format]) := by
    simpa [hf.notEmpty] using hpath format
  have hextended : Path.IsName (stem ++ "." ++ format) :=
    Path.isName_extended hname hne hcases hslash hf.notEmpty
  have hwalk : ∀ n ∈ directory ++ [stem ++ "." ++ format], Path.IsName n := by
    simpa [or_imp, forall_and] using ⟨fun n hn => h n (by simp [hn]), hextended⟩
  rw [defaultOutput, hplain]
  split
  · next hsame =>
    obtain ⟨-, hlast⟩ := List.append_inj' (Path.eq_of_same_ofLocation hwalk h hsame) rfl
    obtain rfl : stem ++ "." ++ format = name := by simpa using hlast
    have hout : ("out." ++ format) ≠ "" := by simp
    refine ⟨stem ++ "." ++ ("out." ++ format), fun he => ?_, ?_, ?_⟩
    · have hlength := congrArg (fun text => text.toList.length) he
      simp at hlength
      omega
    · exact Path.isName_extended hname hne hcases (by simp [hslash]) hout
    · simpa using hpath ("out." ++ format)
  · next hother =>
    refine ⟨stem ++ "." ++ format, ?_, hextended, rfl⟩
    rintro rfl
    exact hother (Path.same_iff.2 rfl)

/-! ## Writing where a path leads -/

/-- A command leaves the files that it found, or writes a file where the path leads that it was given
second. -/
def WritesOutput (m m' : Machine) : Prop :=
  ∀ c seen, m'.performed = m.performed ++ [(c, seen)] →
    (m.programs c seen).2 = seen ∨ ∃ output written, c.arguments[2]? = some output ∧
      seen.write ⟨output⟩ written = .ok (m.programs c seen).2

/-- A file that is written through a path is the one where that leads, and no other. -/
theorem node?_of_write {left : FileSystem} {written : Text.Bytes}
    (hw : seen.write output written = .ok left) (hfile : seen.node? place = some (.file content)) :
    (seen.find output = .ok place → left.node? place = some (.file written)) ∧
      (seen.find output ≠ .ok place → left.node? place = some (.file content)) := by
  obtain ⟨found, hl, hputs⟩ := FileSystem.puts_of_write hw
  rw [hputs.node?, ne_eq, FileSystem.find_eq_ok_iff, hl]
  cases found with
  | taken other =>
    by_cases he : place = other
    · simp [FileSystem.Place.location, he]
    · simp [FileSystem.Place.location, he, Ne.symm he, hfile]
  | vacant directory name slash =>
    cases FileSystem.stands_of_locate hl with
    | vacant _ _ hfree _ _ =>
      have hne : place ≠ directory ++ [name] := fun he => by simp [← he, hfile] at hfree
      simp [FileSystem.Place.location, hne, hfile]

/-- A path under a name where no link stands leads to that name only. -/
theorem eq_of_find_child {other : String} (hat : seen.IsDirectoryAt directory)
    (hn : Path.IsName other)
    (hlink : ∀ target, seen.node? (directory ++ [other]) ≠ some (.link target))
    (hf : seen.find (.ofLocation (directory ++ [other])) = .ok place) : place = directory ++ [other] := by
  have hl := FileSystem.find_eq_ok_iff.1 hf
  cases hnode : seen.node? (directory ++ [other]) with
  | none => cases FileSystem.locate_child_free hat hn hnode hl
  | some node =>
    have hplain : ∀ target, node ≠ .link target := fun target he => hlink target (he ▸ hnode)
    exact FileSystem.Place.taken.inj (FileSystem.locate_child_taken hat hn hnode (.inr hplain) hl)

/-! ## What becomes of the file -/

/-- What was there is still found, and no link is new in a directory that was there. -/
structure Finds (before seen : FileSystem) : Prop where
  there : ∀ other node, before.node? other = some node → seen.node? other = some node
  linked : ∀ directory name target, before.node? directory = some .directory →
    seen.node? (directory ++ [name]) = some (.link target) →
    before.node? (directory ++ [name]) = some (.link target)

/-- What becomes of a file that is compiled: no compiler is called, and it stays; or one is, finds all that
was there, and the file is as that leaves it; or a copy for the debug directory takes its place. -/
inductive Becomes (s : Settings) (m m' : Machine) (output : Path) (place : Location)
    (content : Text.Bytes) : Prop where
  | uncalled : m'.performed = m.performed → m'.files.node? place = some (.file content) →
      Becomes s m m' output place content
  | called {c : Command} {seen : FileSystem} : m'.performed = m.performed ++ [(c, seen)] →
      c.arguments[2]? = some output.text →
      Finds m.files seen → m'.files.node? place = (m.programs c seen).2.node? place →
      (seen.find output ≠ .ok place → (m.programs c seen).2.node? place = some (.file content)) →
      (∀ written, seen.find output = .ok place → seen.write output written = .ok (m.programs c seen).2 →
        (m.programs c seen).2.node? place = some (.file written)) →
      Becomes s m m' output place content
  | copied {job : Location} {made found : FileSystem} : HadJob s m m' job made found →
      IsCopyPlace s m job found place → Becomes s m m' output place content

/-- What a compiler finds: all that was there before its job. -/
theorem node?_of_confined {job : Location} {node : Node} (ht : m.files.IsTree)
    (hopens : Opens s m.files made) (hfree : made.node? job = none) (hconfined : Confined job made seen)
    (hnode : m.files.node? place = some node) : ¬job <+: place ∧ seen.node? place = some node := by
  have hmade := hopens.kept.node hnode
  have hapart : ¬job <+: place := fun hpre => by
    rw [(hopens.isTree ht).none_beneath hfree hpre] at hmade
    cases hmade
  exact ⟨hapart, by rw [hconfined.others place hapart, hmade]⟩

theorem finds_of_confined {job : Location} (ht : m.files.IsTree) (hopens : Opens s m.files made)
    (hfree : made.node? job = none) (hconfined : Confined job made seen)
    (hd : seen.node? job = some .directory) : Finds m.files seen := by
  refine ⟨fun other node hn => (node?_of_confined ht hopens hfree hconfined hn).2,
    fun directory name target hdirectory hlink => ?_⟩
  have hapart : ¬job <+: directory ++ [name] := fun hpre => by
    rcases List.prefix_concat_iff.1 hpre with rfl | hpre
    · simp [hd] at hlink
    · exact (node?_of_confined ht hopens hfree hconfined hdirectory).1 hpre
  rw [hconfined.others _ hapart] at hlink
  cases hbefore : m.files.node? (directory ++ [name]) with
  | none => cases (hopens.made hbefore hlink).1
  | some node => rw [← hlink, hopens.kept.node hbefore]

/-- The files that a compiler leaves spare the directory of the job, when it writes only where it was
told. -/
theorem spares_of_writesOutput {job : Location} (hw : WritesOutput m m')
    (hcall : m'.performed = m.performed ++ [(c, seen)]) (ht : seen.IsTree)
    (hd : seen.node? job = some .directory) : Spares job (m.programs c seen).2 := by
  rcases hw c seen hcall with hsame | ⟨output, written, -, hwrite⟩
  · exact hsame.symm ▸ Workspace.spares_of_directory ht hd
  · obtain ⟨found, -, hputs⟩ := FileSystem.puts_of_write hwrite
    exact Workspace.spares_of_directory (hputs.isTree ht) (hputs.keeps_directories hd)

/-- A job that was dropped where the compiler writes only where it was told. -/
theorem becomes_of_hadJob {targets : Path → Prop} {job : Location} (ht : m.files.IsTree)
    (hw : WritesOutput m m') (hfile : m.files.node? place = some (.file content))
    (houtput : ∀ c seen, m'.performed = m.performed ++ [(c, seen)] → c.arguments[2]? = some output.text)
    (hjob : HadJob s m m' job made found)
    (hcopies : ∀ other, found.LeadsTo targets other → IsCopyPlace s m job found other)
    (hspares : (∀ c seen, m'.performed = m.performed ++ [(c, seen)] → Spares job found) →
      Spares job found)
    (hleaves : Spares job found → LeavesNothing targets job found m'.files) :
    Becomes s m m' output place content := by
  by_cases hcopied : IsCopyPlace s m job found place
  · exact .copied hjob hcopied
  have hnot : ¬found.LeadsTo targets place := fun hl => hcopied (hcopies place hl)
  cases hjob.called with
  | uncalled hsame hconfined =>
    obtain ⟨hapart, hfound⟩ := node?_of_confined ht hjob.opens hjob.free hconfined hfile
    have hdropped := hleaves (hspares fun c seen hcall => by simp [hsame] at hcall)
    exact .uncalled hsame (by rw [hdropped.others place hapart hnot, hfound])
  | @called c seen hcall _ hconfined hd hfound =>
    subst hfound
    have hseen := hconfined.isTree (hjob.opens.isTree ht)
    obtain ⟨hapart, hthere⟩ := node?_of_confined ht hjob.opens hjob.free hconfined hfile
    have hdropped := hleaves (hspares fun c' seen' hcall' => by
      obtain ⟨rfl, rfl⟩ : c' = c ∧ seen' = seen := by simpa using hcall'.symm.trans hcall
      exact spares_of_writesOutput hw hcall hseen hd)
    refine .called hcall (houtput c seen hcall)
      (finds_of_confined ht hjob.opens hjob.free hconfined hd)
      (hdropped.others place hapart hnot) (fun hne => ?_)
      fun written hleads hwrite => (node?_of_write hwrite hthere).1 hleads
    rcases hw c seen hcall with hsame | ⟨text, written, htext, hwrite⟩
    · rw [hsame, hthere]
    · obtain rfl : output.text = text := Option.some.inj ((houtput c seen hcall).symm.trans htext)
      exact (node?_of_write hwrite hthere).2 hne

theorem compileSource_becomes {source : String} {seenFrom : Option Path} {m₀ : Machine}
    {r : Except Failure Path} (ht : m.files.IsTree) (hn : NamesFit m) (hc : ClockFits m)
    (h₀ : m.Alike m₀) (hf : m₀.files = m.files) (hw : WritesOutput m m')
    (hfile : m.files.node? place = some (.file content))
    (h : (compileSource s source bindings seenFrom (some output) o).Ends m₀ r m') :
    Becomes s m m' output place content := by
  have hcourse := compileSource_course (hf ▸ ht) (fun n => h₀.names ▸ hn n) h
  have houtput : ∀ c seen, m'.performed = m.performed ++ [(c, seen)] →
      c.arguments[2]? = some output.text := by
    intro c seen hcall
    rcases hcourse.calls (hf ▸ ht) with
      ⟨hsame, -⟩ | ⟨w, job, place, m₁, seen', target, -, -, rfl, hcall', -⟩
    · simp [hsame, h₀.performed] at hcall
    · rw [hcall', h₀.performed] at hcall
      obtain ⟨rfl, -⟩ : _ = c ∧ seen' = seen := by simpa using hcall
      rw [arguments_command]
      rfl
  cases hcourse with
  | unopened ha hopening =>
    have hp := (h₀.trans ha).performed
    cases hopening with
    | unprepared _ hsame => exact .uncalled hp (by rw [hsame, hf, hfile])
    | failed _ _ hopens => exact .uncalled hp (hopens.kept.node (hf.symm ▸ hfile))
  | @dropped resolution w job place' done m₁ m₂ _ copied hr ha hfor hrun hdrops =>
    obtain ⟨made, targets, hadJob, hcopies, hspares, hleaves⟩ :=
      hadJob_of_dropped ht hc hf (h₀.trans ha) hfor hrun hdrops
    exact becomes_of_hadJob ht hw hfile houtput hadJob hcopies hspares hleaves

/-- The directory of a file that a path leads to. -/
theorem directoryAt_of_find {fs : FileSystem} (hf : fs.find input = .ok place)
    (hfile : fs.node? place = some (.file content)) :
    ∃ directory name, place = directory ++ [name] ∧ fs.IsDirectoryAt directory ∧
      ∀ n ∈ place, Path.IsName n := by
  obtain ⟨hdirect, -⟩ := FileSystem.direct_of_find hf
  rcases List.eq_nil_or_concat place with rfl | ⟨directory, name, rfl⟩
  · cases (FileSystem.node?_root fs).symm.trans hfile
  · rw [List.concat_eq_append] at hdirect ⊢
    exact ⟨directory, name, rfl, hdirect.above, hdirect.isName⟩

/-- A file that is compiled without a word about its artifact gets it under another name in its own
directory. It stays as it is when the compiler writes only there, unless that name is a link which leads to
the file, or a copy for the debug directory takes its place. -/
theorem default_output_spares_unlinked_input {r : Except Failure Path} (ht : m.files.IsTree)
    (hn : NamesFit m) (hc : ClockFits m) (hformat : IsPlainFormat (o.effectiveFormat service.settings))
    (hw : WritesOutput m m') (hinput : m.files.find input = .ok place)
    (hfile : m.files.node? place = some (.file content))
    (h : (compileFile service input none bindings o).Ends m r m') :
    ∃ directory name other, place = directory ++ [name] ∧ other ≠ name ∧ Path.IsName other ∧
      defaultOutput (.ofLocation place) (o.effectiveFormat service.settings) =
        .ofLocation (directory ++ [other]) ∧
      Becomes service.settings m m' (.ofLocation (directory ++ [other])) place content ∧
      (service.settings.debug = false →
        (∀ target, m.files.node? (directory ++ [other]) ≠ some (.link target)) →
        m'.files.node? place = some (.file content)) := by
  obtain ⟨directory, name, rfl, hat, hnames⟩ := directoryAt_of_find hinput hfile
  obtain ⟨other, hne, hother, hpath⟩ := defaultOutput_ofLocation hformat hnames
  have hbecomes : Becomes service.settings m m' (.ofLocation (directory ++ [other])) (directory ++ [name])
      content := by
    rcases compileFile_targets h with ⟨-, rfl⟩ | ⟨file, source, m₁, hfile', -, ha, hf, h⟩
    · exact .uncalled rfl hfile
    · have hcanonical : m.files.canonicalize input = .ok (.ofLocation (directory ++ [name])) := by
        rw [FileSystem.canonicalize, hinput]
        rfl
      obtain rfl := Except.ok.inj (hfile'.symm.trans hcanonical)
      rw [Options.fileTarget, Option.map_none, Option.getD_none, hpath] at h
      exact compileSource_becomes ht hn hc ha hf hw hfile h
  refine ⟨directory, name, other, rfl, hne, hother, hpath, hbecomes, fun hdebug hlink => ?_⟩
  cases hbecomes with
  | uncalled _ hkept => exact hkept
  | @called c seen _ _ hfinds hleft hkept _ =>
    rw [hleft]
    refine hkept fun hf => hne ?_
    have hunlinked : ∀ target, seen.node? (directory ++ [other]) ≠ some (.link target) :=
      fun target hl => hlink target (hfinds.linked _ _ _ hat.node hl)
    have hsame := eq_of_find_child (hat.of_directories fun _ hd => hfinds.there _ _ hd) hother hunlinked hf
    simpa using hsame.symm
  | copied _ hcopy => exact absurd hcopy.1 (by simp [hdebug])

/-! ## A link beside the file -/

/-- What a compiler does that writes an octet where it was told. -/
def writeOctet (c : Command) (fs : FileSystem) : Outcome × FileSystem :=
  match c.arguments[2]? with
  | none => (.exited (some 1) [] [], fs)
  | some output =>
    match fs.write ⟨output⟩ [0x25] with
    | .ok written => (.exited (some 0) [] [], written)
    | .error _ => (.exited (some 1) [] [], fs)

theorem writesOutput_writeOctet (hp : m.programs = writeOctet) : WritesOutput m m' := by
  intro c seen _
  rw [hp, writeOctet]
  cases houtput : c.arguments[2]? with
  | none => exact .inl rfl
  | some output =>
    cases hwrite : seen.write ⟨output⟩ [0x25] with
    | ok written => exact .inr ⟨output, [0x25], rfl, by simp [hwrite]⟩
    | error e => exact .inl (by simp [hwrite])

/-- Wherever the letter and the link to it still are, the link leads to the letter. -/
theorem find_letter (hfinds : Finds letterFiles seen) :
    seen.find ⟨"/t/a.pdf"⟩ = .ok ["t", "a.typ"] := by
  have hdirectory : seen.node? ["t"] = some .directory := hfinds.there _ _ rfl
  have hlink : seen.node? ["t", "a.pdf"] = some (.link "a.typ") := hfinds.there _ _ rfl
  have hfile : seen.node? ["t", "a.typ"] = some (.file (Text.Utf8.encode "x")) := hfinds.there _ _ rfl
  have hnames : seen.namesFromRoot ⟨"/t/a.pdf"⟩ = [[], ['t'], ['a', '.', 'p', 'd', 'f']] := by
    rw [FileSystem.namesFromRoot, if_pos (by decide)]
    decide
  have htarget : FileSystem.targetStart ["t"] "a.typ" = ["t"] ∧
      (⟨"a.typ"⟩ : Path).segments = [['a', '.', 't', 'y', 'p']] := by decide
  have hstart : String.ofList ['t'] = "t" := by decide
  have hartifact : String.ofList ['a', '.', 'p', 'd', 'f'] = "a.pdf" := by decide
  have hletter : String.ofList ['a', '.', 't', 'y', 'p'] = "a.typ" := by decide
  have hlimit : FileSystem.linkLimit = 39 + 1 := rfl
  rw [FileSystem.find_eq_ok_iff, FileSystem.locate, if_neg (by decide), if_neg (by decide),
    if_neg (by decide), hnames, hlimit, FileSystem.walk, if_pos (by decide), FileSystem.walk,
    if_neg (by decide), if_neg (by decide), if_neg (by decide)]
  simp only [hstart, List.nil_append, hdirectory]
  rw [FileSystem.walk, if_neg (by decide), if_neg (by decide), if_neg (by decide)]
  simp only [hartifact, List.cons_append, List.nil_append, hlink, htarget]
  rw [if_neg (by decide), FileSystem.walk, if_neg (by decide), if_neg (by decide), if_neg (by decide)]
  simp only [hletter, List.cons_append, List.nil_append, hfile]
  rfl

theorem write_letter (hfinds : Finds letterFiles seen) (written : Text.Bytes) :
    seen.write ⟨"/t/a.pdf"⟩ written = .ok (seen.set ["t", "a.typ"] (.file written)) := by
  have hfile : seen.node? ["t", "a.typ"] = some (.file (Text.Utf8.encode "x")) := hfinds.there _ _ rfl
  rw [FileSystem.write, FileSystem.find_eq_ok_iff.1 (find_letter hfinds)]
  simp only [hfile]

/-- The letter is compiled without a word about its artifact, to a name that is a link to it. The compiler
writes only there, and the letter is lost. -/
theorem default_output_overwrites_linked_letter :
    letterFiles.IsTree ∧ NamesFit (letterMachine writeOctet) ∧ ClockFits (letterMachine writeOctet) ∧
      IsPlainFormat (({} : Options).effectiveFormat selfImportService.settings) ∧
      letterFiles.find ⟨"/t/a.typ"⟩ = .ok ["t", "a.typ"] ∧
      letterFiles.node? ["t", "a.typ"] = some (.file (Text.Utf8.encode "x")) ∧
      ∃ r m', (compileFile selfImportService ⟨"/t/a.typ"⟩ none [] {}).Ends (letterMachine writeOctet) r m' ∧
        WritesOutput (letterMachine writeOctet) m' ∧
        m'.files.node? ["t", "a.typ"] = some (.file [0x25]) := by
  have hc : ClockFits (letterMachine writeOctet) := fun n => by
    rw [show (letterMachine writeOctet).clock n = "0" from rfl]
    decide
  have hformat : IsPlainFormat (({} : Options).effectiveFormat selfImportService.settings) :=
    isPlainFormat_of_isSafe (by decide)
  have hfile : letterFiles.node? ["t", "a.typ"] = some (.file (Text.Utf8.encode "x")) := rfl
  have hinput : letterFiles.find ⟨"/t/a.typ"⟩ = .ok ["t", "a.typ"] := by
    have hpath : (⟨"/t/a.typ"⟩ : Path) = .ofLocation ["t", "a.typ"] := by decide
    rw [hpath, FileSystem.find_eq_ok_iff]
    exact FileSystem.locate_of_direct direct_letter hfile (by simp) (by decide)
  obtain ⟨r, m', h⟩ :=
    (compileFile selfImportService ⟨"/t/a.typ"⟩ none [] {}).exists_ends (letterMachine writeOctet)
  refine ⟨isTree_letter, namesFit_letter, hc, hformat, hinput, hfile, r, m', h,
    writesOutput_writeOctet rfl, ?_⟩
  obtain ⟨directory, name, other, -, -, -, hpath, hbecomes, -⟩ := default_output_spares_unlinked_input
    isTree_letter namesFit_letter hc hformat (writesOutput_writeOctet rfl) hinput hfile h
  have houtput : Path.ofLocation (directory ++ [other]) = ⟨"/t/a.pdf"⟩ :=
    hpath.symm.trans (by decide)
  rw [houtput] at hbecomes
  cases hbecomes with
  | uncalled hsame _ => exact absurd hsame (performed_letter h)
  | copied _ hcopy => exact absurd hcopy.1 (by decide)
  | @called c seen _ hc hfinds hleft _ hwritten =>
    have hwrite := write_letter hfinds [0x25]
    have hprograms : (writeOctet c seen).2 = seen.set ["t", "a.typ"] (.file [0x25]) := by
      simp only [writeOctet, hc, hwrite]
    rw [hleft]
    exact hwritten [0x25] (find_letter hfinds) (hwrite.trans (congrArg _ hprograms.symm))

end Galley.Service
