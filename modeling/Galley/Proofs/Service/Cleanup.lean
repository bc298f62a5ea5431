import Galley.Proofs.Service.Alone

/-! # What a compilation leaves

Whichever way a compilation ends, its job is gone. What it adds itself are the directories of its settings
and the copies in the debug directory, and what it found is still there unless a copy went over it. That
happens in the debug directory, and outside of it where a link stands under the name of a copy: a copy is
written where the link leads. -/

namespace Galley.Service

open Workspace (ClockFits Confined Drops IsCopyName Job LeavesNothing NamesFile NamesFit Opens OpensJob
  Removes Spares copyPath inputName jobStart)

variable {m m' : Machine} {service : Service} {s : Settings} {source : String} {bindings : Record}
  {directory : Option Path} {o : Options} {output : Option Path} {place : Location}
  {made found : FileSystem}

/-- The compiler did not change what stands at a location, where it was called. -/
def Untouched (m m' : Machine) (other : Location) : Prop :=
  ∀ c seen, m'.performed = m.performed ++ [(c, seen)] →
    (m.programs c seen).2.node? other = seen.node? other

/-- Where a copy of a file of the job goes, when there is a debug directory: under its name there, or where
a link of that name leads. -/
def IsCopyPlace (s : Settings) (m : Machine) (place : Location) (fs : FileSystem) (other : Location) :
    Prop :=
  s.debug = true ∧ ∃ directory name, fs.Leads s.debugDirectory directory ∧
    IsCopyName m.clock place name ∧ (other = directory ++ [name] ∨
      (∃ target, fs.node? (directory ++ [name]) = some (.link target)) ∧
        ∃ found, fs.locate (s.debugDirectory.join name) = .ok found ∧ found.location = other)

theorem isCopyPlace_of_leadsTo {fs before : FileSystem} {job : Job} {w : Workspace}
    {other : Location} (hc : ClockFits m) (hjob : job.Holds w place before)
    (hdebug : job.workspace.debugDirectory = if s.debug then some s.debugDirectory else none)
    (h : fs.LeadsTo (job.IsCopyPath m.clock) other) : IsCopyPlace s m place fs other := by
  obtain ⟨q, hq, found, hl, hother⟩ := h
  obtain ⟨debug, name, hd, hcopy, hn, rfl⟩ := hq.exists_name hc hjob
  rw [hdebug] at hd
  split at hd
  · next hs =>
    obtain rfl := Option.some.inj hd
    obtain ⟨directory, hleads, hplace⟩ := FileSystem.leads_of_locate_join hn hl
    rw [hother] at hplace
    exact ⟨hs, directory, name, hleads, hcopy, hplace.imp_right fun hlink => ⟨hlink, found, hl, hother⟩⟩
  · cases hd

/-- Which files a job is dropped with: nothing changed but below its directory, and then by the compiler,
if it was called, on an input in that directory. -/
inductive Called (m m' : Machine) (place : Location) (made found : FileSystem) : Prop where
  | uncalled : m'.performed = m.performed → Confined place made found → Called m m' place made found
  | called {c : Command} {seen : FileSystem} : m'.performed = m.performed ++ [(c, seen)] →
      c.arguments.take 2 = ["compile", (Path.ofLocation (place ++ [inputName place])).text] →
      Confined place made seen → seen.node? place = some .directory → (m.programs c seen).2 = found →
      Called m m' place made found

/-- The job of a compilation: its directory was free when those of the settings were made. -/
structure HadJob (s : Settings) (m m' : Machine) (place : Location) (made found : FileSystem) :
    Prop where
  opens : Opens s m.files made
  named : ∃ directory name, place = directory ++ [Workspace.jobStart ++ name]
  free : made.node? place = none
  called : Called m m' place made found

/-- What a copy of a file of a job holds: what was read of a file, or nothing when one was copied onto
itself. -/
def IsCopy (place : Location) (fs : FileSystem) (content : Text.Bytes) : Prop :=
  content = [] ∨
    ∃ name, NamesFile place name ∧ fs.read (.ofLocation (place ++ [name])) = .ok content

/-- No link stands in the debug directory under the name of a copy. -/
def Unlinked (s : Settings) (m : Machine) (place : Location) (fs : FileSystem) : Prop :=
  ∀ directory name target, fs.Leads s.debugDirectory directory → IsCopyName m.clock place name →
    fs.node? (directory ++ [name]) ≠ some (.link target)

/-- A location does not lie in the debug directory. -/
def IsOutside (s : Settings) (fs : FileSystem) (other : Location) : Prop :=
  ∀ directory, fs.Leads s.debugDirectory directory → ¬directory <+: other

/-- Whatever the time, the path that the copy of the entrypoint gets leads to a file. -/
structure IsInTheWay (s : Settings) (m : Machine) (place : Location) (fs : FileSystem)
    (other : Location) : Prop where
  debug : s.debug = true
  input : fs.isFile (.ofLocation (place ++ [inputName place])) = true
  file : ∃ old, fs.node? other = some (.file old)
  leads : ∀ n, fs.find (copyPath s.debugDirectory (m.clock n) .input
    (.ofLocation (place ++ [inputName place]))) = .ok other

/-- A job is gone with all that lay in its directory. What was there before and was left alone by the
compiler still is, but where copies go; what was added is a directory of the settings, or a copy. Outside
the debug directory all of it stays, and nothing else is added, unless a link stands there under the name of
a copy. What such a link leads to is lost. -/
structure CleansUp (s : Settings) (m m' : Machine) (place : Location) (made found : FileSystem) :
    Prop where
  isTree : m'.files.IsTree
  gone : ∀ rest, m'.files.node? (place ++ rest) = none
  kept : ∀ other node, m.files.node? other = some node → Untouched m m' other →
    ¬IsCopyPlace s m place found other → m'.files.node? other = some node
  added : ∀ other node, m.files.node? other = none → Untouched m m' other →
    m'.files.node? other = some node → made.node? other = some node ∨ IsCopyPlace s m place found other
  copied : ∀ other, ¬place <+: other → Untouched m m' other →
    m'.files.node? other = made.node? other ∨
      ∃ content, IsCopy place found content ∧ m'.files.node? other = some (.file content)
  unlinked : Unlinked s m place found → ∀ other, IsOutside s found other → Untouched m m' other →
    (∀ node, m.files.node? other = some node → m'.files.node? other = some node) ∧
      ∀ node, m.files.node? other = none → m'.files.node? other = some node →
        made.node? other = some node
  overwritten : m'.performed ≠ m.performed → ∀ other, ¬place <+: other →
    IsInTheWay s m place found other →
    ∃ content, IsCopy place found content ∧ m'.files.node? other = some (.file content)

/-- What stands where the compiler did not touch it, when a job is dropped. -/
theorem Called.node? (h : Called m m' place made found) {other : Location} (ho : ¬place <+: other)
    (hu : Untouched m m' other) : found.node? other = made.node? other := by
  cases h with
  | uncalled _ hc => exact hc.others other ho
  | called hcall _ hc _ hfound =>
    rw [← hfound, hu _ _ hcall, hc.others other ho]

/-- A place where a copy goes lies in the debug directory, unless a link stands there. -/
theorem IsCopyPlace.not_isOutside {fs : FileSystem} {other : Location} (h : IsCopyPlace s m place fs other)
    (hu : Unlinked s m place fs) : ¬IsOutside s fs other := by
  obtain ⟨-, directory, name, hleads, hcopy, rfl | ⟨⟨target, hlink⟩, -⟩⟩ := h
  · exact fun ho => ho directory hleads (List.prefix_append _ _)
  · exact absurd hlink (hu directory name target hleads hcopy)

/-- What the files that a job is dropped with are to those that are left. -/
structure CopiesOf (s : Settings) (m m' : Machine) (place : Location) (found : FileSystem) : Prop where
  copied : ∀ other, ¬place <+: other → m'.files.node? other = found.node? other ∨
    ∃ content, IsCopy place found content ∧ m'.files.node? other = some (.file content)
  overwritten : m'.performed ≠ m.performed → ∀ other, ¬place <+: other →
    IsInTheWay s m place found other →
    ∃ content, IsCopy place found content ∧ m'.files.node? other = some (.file content)

theorem cleansUp_of_leavesNothing {targets : Path → Prop} (ht : m.files.IsTree)
    (hjob : HadJob s m m' place made found)
    (htargets : ∀ other, found.LeadsTo targets other → IsCopyPlace s m place found other)
    (hcopies : CopiesOf s m m' place found) (h : LeavesNothing targets place found m'.files) :
    CleansUp s m m' place made found := by
  have hothers : ∀ other, ¬place <+: other → Untouched m m' other →
      ¬IsCopyPlace s m place found other → m'.files.node? other = made.node? other := by
    intro other ho hu hnot
    rw [h.others other ho fun hl => hnot (htargets other hl), hjob.called.node? ho hu]
  have hkept : ∀ other node, m.files.node? other = some node → Untouched m m' other →
      ¬IsCopyPlace s m place found other → m'.files.node? other = some node := by
    intro other node hn hu hnot
    have hmade := hjob.opens.kept.node hn
    rw [hothers other (fun hpre => ?_) hu hnot, hmade]
    rw [(hjob.opens.isTree ht).none_beneath hjob.free hpre] at hmade
    cases hmade
  have hadded : ∀ other node, Untouched m m' other → m'.files.node? other = some node →
      made.node? other = some node ∨ IsCopyPlace s m place found other := by
    intro other node hu hs
    by_cases hnot : IsCopyPlace s m place found other
    · exact .inr hnot
    · rw [hothers other (fun hpre => ?_) hu hnot] at hs
      · exact .inl hs
      · obtain ⟨rest, rfl⟩ := hpre
        rw [h.gone] at hs
        cases hs
  refine ⟨h.isTree, h.gone, hkept, fun other node _ => hadded other node, fun other ho hu => ?_,
    fun hlinks other hout hu => ⟨fun node hn => ?_, fun node _ hs => ?_⟩, hcopies.overwritten⟩
  · exact hjob.called.node? ho hu ▸ hcopies.copied other ho
  · exact hkept other node hn hu fun hcopy => hcopy.not_isOutside hlinks hout
  · exact (hadded other node hu hs).resolve_right fun hcopy => hcopy.not_isOutside hlinks hout

/-- A compilation had no job, and made no more than directories of its settings; or the job that it had
is gone, unless the compiler put something else in its place. -/
def LeavesNoJob (s : Settings) (m m' : Machine) : Prop :=
  (m'.performed = m.performed ∧ Opens s m.files m'.files) ∨
    ∃ place made found, HadJob s m m' place made found ∧
      ((∀ c seen, m'.performed = m.performed ++ [(c, seen)] → Spares place found) →
        CleansUp s m m' place made found)

/-- A compilation that refuses a text changed no files and called no compiler. -/
def UnchangedOnRefusal (m : Machine) (r : Except Failure Path) (m' : Machine) : Prop :=
  ∀ e, r = .error e → e.IsRefusal → m'.files = m.files ∧ m'.performed = m.performed

/-- A job that was opened is dropped on the files that were written into it, or on those that the
compiler left. -/
theorem called_of_runsJob {w : Workspace} {job : Job} {resolution : Dependency.Resolution}
    {done : Job × Except Failure Path} {m₁ m₂ : Machine} (ha : m.Alike m₁) (hmade : made.IsTree)
    (hjob : OpensJob w made job place m₁.files) (hrun : RunsJob s o w place resolution output m₁ done m₂)
    (hp : m'.performed = m₂.performed) :
    Called m m' place made m₂.files ∧ m₂.clock = m.clock ∧
      ((∀ c seen, m'.performed = m.performed ++ [(c, seen)] → Spares place m₂.files) →
        Spares place m₂.files) ∧
      ∃ fs, done.1.Holds w place fs := by
  obtain ⟨m₃, hwrites, hend⟩ := hrun.written
  have hconfined := hjob.confined.trans hwrites.confined
  have hbefore := ha.trans hwrites.alike
  rcases hend with ⟨rfl, -⟩ | ⟨⟨hperforms, -⟩, -⟩
  · refine ⟨.uncalled (hp.trans hbefore.performed) hconfined, hbefore.clock, fun _ => ?_, _,
      hwrites.holds⟩
    exact Workspace.spares_of_directory (hconfined.isTree hmade) hwrites.holds.directoryAt.node
  · have hcall := hp.trans hperforms.performed
    rw [hbefore.performed] at hcall
    refine ⟨.called hcall ?_ hconfined hwrites.holds.directoryAt.node ?_,
      hperforms.clock.trans hbefore.clock, fun hspares => hspares _ _ hcall, _, hwrites.holds⟩
    · simp [command, Command.compile, Command.withRoot, Command.withFontPaths, Command.add]
    · rw [hperforms.files, hbefore.programs]

/-- When a job is dropped, its directory is removed after the copies. -/
theorem OpensFor.removes {w : Workspace} {job dropped : Job} {m₀ m₁ m₂ : Machine}
    {before copied : FileSystem} (hfor : OpensFor s m₀ w job place m₁) (hholds : dropped.Holds w place before)
    (hdrops : Drops dropped m₂ m' copied) (hs : Spares place m₂.files) : Removes place copied m'.files := by
  obtain ⟨made, -, hjob⟩ := hfor.opened
  obtain ⟨front, name, hp⟩ := hjob.named
  obtain ⟨reached, hreached⟩ := hjob.reached
  rw [hjob.directory, ← hholds.directory] at hreached
  exact hdrops.removes hholds (by simp [hp]) hreached hs

/-- What is known of a job when it was opened, run and dropped. -/
theorem hadJob_of_dropped {w : Workspace} {job : Job} {resolution : Dependency.Resolution}
    {done : Job × Except Failure Path} {m₀ m₁ m₂ : Machine} {copied : FileSystem}
    (ht : m.files.IsTree) (hc : ClockFits m) (hf : m₀.files = m.files) (ha : m.Alike m₁)
    (hfor : OpensFor s m₀ w job place m₁) (hrun : RunsJob s o w place resolution output m₁ done m₂)
    (hdrops : Drops done.1 m₂ m' copied) :
    ∃ made targets, HadJob s m m' place made m₂.files ∧
      (∀ other, m₂.files.LeadsTo targets other → IsCopyPlace s m place m₂.files other) ∧
      ((∀ c seen, m'.performed = m.performed ++ [(c, seen)] → Spares place m₂.files) →
        Spares place m₂.files) ∧
      (Spares place m₂.files → LeavesNothing targets place m₂.files m'.files) := by
  obtain ⟨made, hopens, hjob⟩ := hfor.opened
  rw [hf] at hopens
  obtain ⟨hcalled, hclock, hspares, before, hholds⟩ :=
    called_of_runsJob ha (hopens.isTree ht) hjob hrun hdrops.alike.performed
  refine ⟨made, done.1.IsCopyPath m.clock, ⟨hopens, hjob.named, hjob.puts.before, hcalled⟩,
    fun other hl => ?_, hspares, fun hs => ?_⟩
  · exact isCopyPlace_of_leadsTo hc hholds (hholds.workspace ▸ hfor.debugDirectory) hl
  · exact hclock ▸ hdrops.leavesNothing (hfor.removes hholds hdrops hs)

/-- What becomes of the files around a job that was opened, run and dropped. -/
theorem copiesOf_of_dropped {w : Workspace} {job : Job} {resolution : Dependency.Resolution}
    {done : Job × Except Failure Path} {m₀ m₁ m₂ : Machine} {copied : FileSystem}
    (ht : m.files.IsTree) (hf : m₀.files = m.files) (ha : m.Alike m₁) (hfor : OpensFor s m₀ w job place m₁)
    (hrun : RunsJob s o w place resolution output m₁ done m₂) (hdrops : Drops done.1 m₂ m' copied)
    (hs : Spares place m₂.files) : CopiesOf s m m' place m₂.files := by
  obtain ⟨made, hopens, hjob⟩ := hfor.opened
  rw [hf] at hopens
  obtain ⟨-, hclock, -, before, hholds⟩ :=
    called_of_runsJob ha (hopens.isTree ht) hjob hrun hdrops.alike.performed
  have hremoves := hfor.removes hholds hdrops hs
  have hcopy : ∀ {content}, done.1.IsCopied m₂.files content → IsCopy place m₂.files content := by
    rintro content (hempty | ⟨p, hp, hread⟩)
    · exact .inl hempty
    · obtain ⟨name, hname, -, rfl⟩ := hholds.tracked p hp
      exact .inr ⟨name, hname, hread⟩
  refine ⟨fun other ho => ?_, fun hcalled other ho hway => ?_⟩
  · rw [hremoves.others other ho]
    rcases hdrops.fills.node other with hsame | ⟨content, hcontent, hnode⟩
    · exact .inl hsame
    · exact .inr ⟨content, hcopy hcontent, hnode⟩
  · rw [hdrops.alike.performed, ← ha.performed] at hcalled
    obtain ⟨old, hold⟩ := hway.file
    have hdebug : done.1.workspace.debugDirectory = some s.debugDirectory := by
      rw [hholds.workspace, hfor.debugDirectory, if_pos hway.debug]
    obtain ⟨content, hcontent, hnode⟩ := hdrops.overwrites hdebug (hrun.input hcalled) hway.input hold
      (hclock ▸ hway.leads)
    exact ⟨content, hcopy hcontent, (hremoves.others other ho).trans hnode⟩

theorem compileSource_leaves {m₀ : Machine} {r : Except Failure Path} (ht : m.files.IsTree)
    (hn : NamesFit m) (hc : ClockFits m) (h₀ : m.Alike m₀) (hf : m₀.files = m.files)
    (h : (compileSource s source bindings directory output o).Ends m₀ r m') :
    UnchangedOnRefusal m r m' ∧ LeavesNoJob s m m' := by
  cases compileSource_course (hf ▸ ht) (fun n => h₀.names ▸ hn n) h with
  | unopened ha hopening =>
    have hp := (h₀.trans ha).performed
    cases hopening with
    | unprepared _ hsame =>
      have hfiles := hsame.trans hf
      exact ⟨fun _ _ _ => ⟨hfiles, hp⟩, .inl ⟨hp, hfiles ▸ .refl _ _⟩⟩
    | failed _ hr hopens =>
      refine ⟨fun e he hrefusal => ?_, .inl ⟨hp, hf ▸ hopens⟩⟩
      obtain rfl := Except.error.inj he
      exact absurd hrefusal hr
  | @dropped resolution w job place done m₁ m₂ _ copied hr ha hfor hrun hdrops =>
    refine ⟨fun e he hrefusal => absurd hrefusal (hrun.noRefusal e he), ?_⟩
    obtain ⟨made, targets, hadJob, hcopies, hspares, hleaves⟩ :=
      hadJob_of_dropped ht hc hf (h₀.trans ha) hfor hrun hdrops
    refine .inr ⟨place, made, m₂.files, hadJob, fun hall => ?_⟩
    exact cleansUp_of_leavesNothing ht hadJob hcopies
      (copiesOf_of_dropped ht hf (h₀.trans ha) hfor hrun hdrops (hspares hall)) (hleaves (hspares hall))

/-- Whichever way a call ends that compiles to a file, its job is gone, and what it found and the
compiler left alone is still there, but where copies go. A call that refuses a text changes
nothing. -/
theorem compilation_leaves_no_job {input : Path} {r : Except Failure Path} (ht : m.files.IsTree)
    (hn : NamesFit m) (hc : ClockFits m)
    (h : (compileToFile service source bindings o).Ends m r m' ∨
      (compileFile service input output bindings o).Ends m r m') :
    UnchangedOnRefusal m r m' ∧ LeavesNoJob service.settings m m' := by
  rcases h with h | h
  · exact compileSource_leaves ht hn hc (.refl m) rfl h
  · rcases compileFile_ends h with ⟨-, rfl⟩ | ⟨source, directory, target, m₁, -, ha, hf, h⟩
    · exact ⟨fun _ _ _ => ⟨rfl, rfl⟩, .inl ⟨rfl, .refl _ _⟩⟩
    · exact compileSource_leaves ht hn hc ha hf h

/-! ## A link under the name of a copy -/

/-- A letter, beside a scratch directory and a debug directory. -/
def asideFiles : FileSystem where
  entries := [(["t"], .directory), (["d"], .directory), (["letter"], .file [1])]
  current := ["t"]
  distinct := by decide

/-- The files with a link to the letter, under the name of a copy. -/
def withLinkToLetter (fs : FileSystem) : FileSystem :=
  fs.set ["d", "0_input_typst_n.typ"] (.link "/letter")

/-- A machine on which the compiler makes that link. -/
def linkingMachine : Machine where
  files := asideFiles
  environment := ⟨[]⟩
  programs := fun _ fs => (.exited (some 0) [] [], withLinkToLetter fs)
  names := fun _ => "n"
  clock := fun _ => "0"

def debuggingService : Service :=
  ⟨{ Settings.default ⟨"/t"⟩ with workingDirectory := ⟨"/t"⟩, debug := true, debugDirectory := ⟨"/d"⟩ }⟩

/-- What is there when the job is dropped of a text that is one letter long. -/
def linkedFiles : FileSystem := withLinkToLetter (HasRoom.written asideFiles ["t"] "typst_n" "x")

theorem directoryAt_root {fs : FileSystem} {name : String} (hd : fs.node? [name] = some .directory)
    (hn : Path.IsName name) (hs : Text.utf8Size name.toList ≤ FileSystem.nameLimit) :
    fs.IsDirectoryAt [name] :=
  ⟨(FileSystem.Direct.root _).append rfl hn hs, hd⟩

theorem isTree_linked : linkedFiles.IsTree := by decide +kernel

theorem directoryAt_linkedJob : linkedFiles.IsDirectoryAt ["t", "typst_n"] := by
  have hscratch : linkedFiles.IsDirectoryAt ["t"] := directoryAt_root (by decide) (by decide) (by decide)
  exact ⟨hscratch.direct.append hscratch.node (by decide) (by decide), by decide +kernel⟩

theorem hasRoom_linking : HasRoom debuggingService.settings linkingMachine ["t"] "typst_n" where
  isTree := by decide
  debugAt := fun _ => by
    have hpath : debuggingService.settings.debugDirectory = .ofLocation ["d"] := by decide
    rw [hpath]
    exact FileSystem.isDirectory_of_directory (directoryAt_root rfl (by decide) (by decide)) (by decide)
  path := by decide
  directoryAt := directoryAt_root rfl (by decide) (by decide)
  drawn := fun _ => show jobStart ++ "n" = "typst_n" by decide
  isName := by decide
  free := rfl
  inputFits := by decide
  walkable := by decide

theorem read_linkedInput :
    linkedFiles.read (.ofLocation (["t", "typst_n"] ++ [inputName ["t", "typst_n"]])) =
      .ok (Text.Utf8.encode "x") := by
  have hnode : linkedFiles.node? (["t", "typst_n"] ++ ["typst_n.typ"]) = some (.file (Text.Utf8.encode "x")) := by
    decide +kernel
  have hname : inputName ["t", "typst_n"] = "typst_n.typ" := by decide
  have hdirect := directoryAt_linkedJob.direct.append directoryAt_linkedJob.node
    (by decide : Path.IsName "typst_n.typ") (by decide)
  rw [hname, FileSystem.read_eq_ok_iff, FileSystem.status_of_direct hdirect hnode (by simp) (by decide)]

theorem isInTheWay_letter :
    IsInTheWay debuggingService.settings linkingMachine ["t", "typst_n"] linkedFiles ["letter"] where
  debug := rfl
  input := FileSystem.isFile_iff.2 ⟨_, read_linkedInput⟩
  file := ⟨[1], by decide +kernel⟩
  leads _ := by
    have hpath : copyPath debuggingService.settings.debugDirectory "0" .input
        (.ofLocation (["t", "typst_n"] ++ [inputName ["t", "typst_n"]])) =
          .ofLocation (["d"] ++ ["0_input_typst_n.typ"]) := by decide
    have hletter : linkedFiles.node? ["letter"] = some (.file [1]) := by decide +kernel
    have hlink : linkedFiles.node? (["d"] ++ ["0_input_typst_n.typ"]) =
        some (.link (Path.ofLocation ["letter"]).text) := by decide +kernel
    rw [show linkingMachine.clock _ = "0" from rfl, hpath]
    exact FileSystem.find_child_of_link (directoryAt_root (by decide +kernel) (by decide) (by decide))
      (by decide) (by decide) (by decide) hlink (by simp)
      ((FileSystem.Direct.root _).append rfl (by decide) (by decide)) hletter (by simp)

theorem node?_linkedDependency (p : Path) :
    linkedFiles.node? (["t", "typst_n"] ++ [Dependency.scratchName p]) = none := by
  have hname : Dependency.scratchName p ≠ inputName ["t", "typst_n"] :=
    scratchName_ne_inputName p (show ["t", "typst_n"] = ["t"] ++ [jobStart ++ "n"] by decide)
  rw [linkedFiles, withLinkToLetter, FileSystem.node?_set _ _ _ _ (by simp), if_neg (by simp),
    HasRoom.written, FileSystem.node?_set _ _ _ _ (by simp), if_neg (by simpa using hname),
    HasRoom.opened, FileSystem.node?_set _ _ _ _ (by simp), if_neg (by simp)]
  rfl

/-- No copy of a file of that job holds what the letter held. -/
theorem ne_of_isCopy_linked {content : Text.Bytes} (h : IsCopy ["t", "typst_n"] linkedFiles content) :
    content ≠ [1] := by
  rcases h with rfl | ⟨name, hname, hread⟩
  · simp
  cases hname with
  | input =>
    rw [read_linkedInput] at hread
    rw [← Except.ok.inj hread]
    decide +kernel
  | dependency p =>
    obtain ⟨place, hf, -⟩ := FileSystem.status_eq_ok_iff.1 (FileSystem.read_eq_ok_iff.1 hread)
    cases FileSystem.locate_child_free directoryAt_linkedJob (Dependency.isName_scratchName p)
      (node?_linkedDependency p) (FileSystem.find_eq_ok_iff.1 hf)

theorem prepared_letter :
    ∃ resolution, prepared debuggingService.settings asideFiles "x" [] none = .ok resolution ∧
      resolution.files = [] ∧ resolution.entrypoint = "x" := by
  have hrender : Template.render entrypointName "x" [] = .ok "x" := by decide +kernel
  obtain ⟨resolution, hp, hfiles⟩ := exists_prepared_of_noImports (s := debuggingService.settings)
    asideFiles hrender (by decide +kernel)
  have hentrypoint : (prepared debuggingService.settings asideFiles "x" [] none).toOption.map
      (·.entrypoint) = some "x" := by decide +kernel
  rw [hp] at hentrypoint
  exact ⟨resolution, hp, hfiles, Option.some.inj hentrypoint⟩

/-- The job of the text, and what it is dropped with. -/
theorem eq_of_hadJob_linking {c : Command}
    (hcall : m'.performed = linkingMachine.performed ++ [(c, HasRoom.written asideFiles ["t"] "typst_n" "x")])
    (hjob : HadJob s linkingMachine m' place made found) :
    place = ["t", "typst_n"] ∧ found = linkedFiles := by
  cases hjob.called with
  | uncalled hsame _ => simp [hcall] at hsame
  | @called c' seen hcall' _ _ hd hfound =>
    obtain ⟨rfl, rfl⟩ : c' = c ∧ seen = HasRoom.written asideFiles ["t"] "typst_n" "x" := by
      simpa using hcall'.symm.trans hcall
    refine ⟨?_, hfound.symm⟩
    rw [HasRoom.written, FileSystem.node?_set _ _ _ _ (by simp)] at hd
    split at hd
    · cases hd
    rw [HasRoom.opened, FileSystem.node?_set _ _ _ _ (by simp)] at hd
    split at hd
    · assumption
    · -- a directory that was there before is not that of a new job
      have hmade := hjob.opens.kept.node hd
      rw [hjob.free] at hmade
      cases hmade

/-- A text is compiled, and the compiler makes a link under the name of its copy. The job is gone, and so is
what the letter held to which the link leads. -/
theorem letter_lost_behind_link :
    linkingMachine.files.IsTree ∧ NamesFit linkingMachine ∧ ClockFits linkingMachine ∧
      ∃ r m', (compileToFile debuggingService "x" [] {}).Ends linkingMachine r m' ∧
        asideFiles.node? ["letter"] = some (.file [1]) ∧ Untouched linkingMachine m' ["letter"] ∧
        (∀ rest, m'.files.node? (["t", "typst_n"] ++ rest) = none) ∧
        m'.files.node? ["letter"] ≠ some (.file [1]) := by
  have ht : linkingMachine.files.IsTree := by decide
  have hn : NamesFit linkingMachine := fun n => by
    rw [show linkingMachine.names n = "n" from rfl]
    decide
  have hc : ClockFits linkingMachine := fun n => by
    rw [show linkingMachine.clock n = "0" from rfl]
    decide
  obtain ⟨r, m', h⟩ := (compileToFile debuggingService "x" [] {}).exists_ends linkingMachine
  obtain ⟨resolution, hp, hfiles, hentrypoint⟩ := prepared_letter
  obtain ⟨c, hcall⟩ := calls_of_hasRoom hasRoom_linking hp hfiles h
  rw [hentrypoint] at hcall
  obtain ⟨-, hleaves⟩ := @compilation_leaves_no_job _ _ _ _ _ _ none ⟨""⟩ _ ht hn hc (.inl h)
  have huntouched : Untouched linkingMachine m' ["letter"] := fun c' seen _ => by
    exact FileSystem.node?_set _ _ _ _ (by simp)
  refine ⟨ht, hn, hc, r, m', h, rfl, huntouched, ?_⟩
  rcases hleaves with ⟨hsame, -⟩ | ⟨place, made, found, hjob, hcleans⟩
  · simp [hcall] at hsame
  obtain ⟨rfl, rfl⟩ := eq_of_hadJob_linking hcall hjob
  have hall := hcleans fun _ _ _ => Workspace.spares_of_directory isTree_linked directoryAt_linkedJob.node
  obtain ⟨content, hcopy, hletter⟩ :=
    hall.overwritten (by simp [hcall]) ["letter"] (by simp) isInTheWay_letter
  refine ⟨hall.gone, fun hkept => ne_of_isCopy_linked hcopy ?_⟩
  simpa [hkept, eq_comm] using hletter

end Galley.Service
