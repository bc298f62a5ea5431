import Galley.Proofs.Dependency.ScratchName
import Galley.Proofs.Workspace.Opening

/-! # Writing into a job

Whatever is written into a job is a file directly in its directory; nothing else changes. -/

namespace Galley.Workspace

variable {m m' : Machine} {w : Workspace} {job job' : Job} {place : Location}
  {fs fs' fs'' : FileSystem}

/-- The name of the entrypoint in the directory of a job. -/
def inputName (place : Location) : String := place.getLast?.getD "" ++ inputEnd

theorem toList_inputName {directory : Location} {name : String} :
    (inputName (directory ++ [jobStart ++ name])).toList =
      't' :: (['y', 'p', 's', 't', '_'] ++ (name.toList ++ ['.', 't', 'y', 'p'])) := by
  simp [inputName, jobStart, inputEnd]

theorem isName_inputName {directory : Location} {name : String}
    (hp : place = directory ++ [jobStart ++ name]) (hn : ∀ n ∈ place, Path.IsName n) :
    Path.IsName (inputName place) := by
  subst hp
  have hname := (hn (jobStart ++ name) (by simp)).noSlash
  refine ⟨?_, by simp [toList_inputName, Path.isIdle], by simp [toList_inputName]⟩
  rw [String.toList_append, List.mem_append, not_or] at hname
  simp [toList_inputName, hname.2]

theorem inputName_eq (hne : place ≠ []) (hn : ∀ n ∈ place, Path.IsName n) :
    inputName place = (Path.ofLocation place).fileName ++ inputEnd := by
  obtain ⟨front, last, rfl⟩ : ∃ front last, place = front ++ [last] :=
    ⟨_, _, (List.dropLast_concat_getLast hne).symm⟩
  rw [Path.fileName_ofLocation hn]
  simp [inputName]

/-- The names of the files that are written into a job. -/
inductive NamesFile (place : Location) : String → Prop where
  | input : NamesFile place (inputName place)
  | dependency (p : Path) : NamesFile place (Dependency.scratchName p)

/-- A job that files are written into. -/
structure Job.Holds (job : Job) (w : Workspace) (place : Location) (fs : FileSystem) : Prop where
  workspace : job.workspace = w
  directory : job.directory = .ofLocation place
  tracked : ∀ p ∈ job.tracked, ∃ name, NamesFile place name ∧ Path.IsName name ∧
    p = .ofLocation (place ++ [name])
  directoryAt : fs.IsDirectoryAt place
  files : ∀ name node, fs.node? (place ++ [name]) = some node → ∃ content, node = .file content

/-- Nothing changed but below a directory. -/
structure Confined (place : Location) (fs fs' : FileSystem) : Prop where
  others : ∀ other, ¬place <+: other → fs'.node? other = fs.node? other
  isTree : fs.IsTree → fs'.IsTree

theorem Confined.refl (place : Location) (fs : FileSystem) : Confined place fs fs :=
  ⟨fun _ _ => rfl, id⟩

theorem Confined.trans (h : Confined place fs fs') (h' : Confined place fs' fs'') :
    Confined place fs fs'' :=
  ⟨fun other ho => (h'.others other ho).trans (h.others other ho), fun ht => h'.isTree (h.isTree ht)⟩

/-- What stands below a directory: these files directly in it, and nothing else. -/
def Contains (fs : FileSystem) (place : Location) (files : List (String × Text.Bytes)) : Prop :=
  ∀ rest, rest ≠ [] → ∀ node, fs.node? (place ++ rest) = some node ↔
    ∃ f ∈ files, rest = [f.1] ∧ node = .file f.2

theorem OpensJob.holds (h : OpensJob w fs job place fs') (ht : fs.IsTree) :
    job.Holds w place fs' := by
  refine ⟨h.workspace, h.directory, by simp [Job.tracked, h.input, h.dependencies], h.directoryAt, ?_⟩
  intro name node hn
  rw [h.puts.node?, if_neg (by simp), ht.none_beneath h.puts.before (List.prefix_append _ _)] at hn
  cases hn

theorem OpensJob.contains (h : OpensJob w fs job place fs') (ht : fs.IsTree) :
    Contains fs' place [] := by
  intro rest hne node
  rw [h.puts.node?, if_neg (by simpa using hne),
    ht.none_beneath h.puts.before (List.prefix_append _ _)]
  simp

theorem OpensJob.confined (h : OpensJob w fs job place fs') : Confined place fs fs' := by
  refine ⟨fun other ho => ?_, h.puts.isTree⟩
  rw [h.puts.node?, if_neg]
  rintro rfl
  exact ho (List.prefix_refl _)

/-- A file was put directly into the directory of a job. -/
theorem Job.Holds.puts {name : String} {content : Text.Bytes} (h : job.Holds w place fs)
    (hputs : fs.PutsFile (place ++ [name]) content fs') :
    Confined place fs fs' ∧ fs'.IsDirectoryAt place ∧
      ∀ name node, fs'.node? (place ++ [name]) = some node → ∃ content, node = .file content := by
  refine ⟨⟨fun other ho => ?_, hputs.isTree⟩, ?_, fun other node hn => ?_⟩
  · rw [hputs.node?, if_neg]
    rintro rfl
    exact ho (List.prefix_append _ _)
  · exact h.directoryAt.of_directories fun _ hd => hputs.keeps_directories hd
  · rw [hputs.node?] at hn
    split at hn
    · exact ⟨content, (Option.some.inj hn).symm⟩
    · exact h.files other node hn

/-- Another name adds its file to what a directory contains. -/
theorem Contains.puts {name : String} {content : Text.Bytes} {files : List (String × Text.Bytes)}
    (h : Contains fs place files) (hnew : name ∉ files.map Prod.fst)
    (hputs : fs.PutsFile (place ++ [name]) content fs') :
    Contains fs' place (files ++ [(name, content)]) := by
  intro rest hne node
  rw [hputs.node?]
  by_cases hrest : rest = [name]
  · subst hrest
    have hnone : ¬∃ f ∈ files, [name] = [f.1] ∧ node = .file f.2 := by
      rintro ⟨f, hf, he, -⟩
      exact hnew (List.mem_map.2 ⟨f, hf, (List.cons.inj he).1.symm⟩)
    simp only [if_true, List.mem_append, or_and_right, exists_or, hnone, false_or]
    simp [eq_comm]
  · rw [if_neg (by simpa using hrest), h rest hne node]
    simp [hrest]

theorem Job.Holds.not_link (h : job.Holds w place fs) (name target : String) :
    fs.node? (place ++ [name]) ≠ some (.link target) := fun ht => by
  obtain ⟨_, he⟩ := h.files _ _ ht
  cases he

theorem write_ends {name : String} {content : Text.Bytes} {r : Except Failure Unit}
    (hat : m.files.IsDirectoryAt place) (hn : Path.IsName name)
    (hlink : ∀ target, m.files.node? (place ++ [name]) ≠ some (.link target))
    (hw : (Job.write (.ofLocation (place ++ [name])) content).Ends m r m') :
    m.Alike m' ∧ NoRefusal r ∧ (∀ e, r = .error e → m'.files = m.files) ∧
      (r = .ok () → m.files.PutsFile (place ++ [name]) content m'.files) := by
  simp only [Job.write, Attempt.ends_mk, Run.ends_bind, Run.ends_pure] at hw
  obtain ⟨made, m₁, hchange, rfl, rfl⟩ := hw
  rcases Machine.ends_change.1 hchange with ⟨fs, hwrite, rfl, rfl⟩ | ⟨e, -, rfl, rfl⟩
  · refine ⟨⟨rfl, rfl, rfl, rfl⟩, noRefusal_ok (), fun _ he => (by cases he), fun _ => ?_⟩
    exact FileSystem.puts_of_write_child hat hn hlink hwrite
  · exact ⟨.refl _, noRefusal_error id, fun _ _ => rfl, fun he => by cases he⟩

/-- A write that is reported and recorded fails as the write does, or is recorded. -/
theorem recorded_write_ends {p : Path} {content : Text.Bytes} {event : Event} {done : Job}
    {r : Except Failure Job}
    (h : Attempt.Ends (do
      Job.write p content
      Machine.report event
      return done) m r m') :
    (∃ e, (Job.write p content).Ends m (.error e) m' ∧ r = .error e) ∨
      ∃ m₁, (Job.write p content).Ends m (.ok ()) m₁ ∧ m₁.Alike m' ∧ m'.files = m₁.files ∧ r = .ok done := by
  rcases Attempt.ends_bind.1 h with hfails | ⟨_, m₁, hw, hrest⟩
  · exact .inl hfails
  · simp only [Attempt.ends_liftM_bind, Machine.ends_report, Attempt.ends_pure] at hrest
    obtain ⟨_, _, rfl, rfl, rfl⟩ := hrest
    exact .inr ⟨m₁, hw, ⟨rfl, rfl, rfl, rfl⟩, rfl, rfl⟩

/-- What happened when something was written into a job. -/
structure Writes (w : Workspace) (place : Location) (m m' : Machine) (job' : Job) : Prop where
  alike : m.Alike m'
  confined : Confined place m.files m'.files
  holds : job'.Holds w place m'.files

theorem Writes.trans {m₁ : Machine} {job'' : Job} (h : Writes w place m m₁ job')
    (h' : Writes w place m₁ m' job'') : Writes w place m m' job'' :=
  ⟨h.alike.trans h'.alike, h.confined.trans h'.confined, h'.holds⟩

theorem tracked_track {p q : Path} (h : q ∈ (job.track p).tracked) : q ∈ job.tracked ∨ q = p := by
  rw [Job.track] at h
  split at h
  · exact .inl h
  · simp only [Job.tracked, List.mem_append, List.mem_singleton] at h ⊢
    rw [or_assoc]
    exact h

theorem Job.Holds.track {p q : Path} (h : job.Holds w place fs)
    (hp : p = .ofLocation (place ++ [Dependency.scratchName q])) :
    (job.track p).Holds w place fs := by
  have htrack : (job.track p).workspace = job.workspace ∧ (job.track p).directory = job.directory := by
    rw [Job.track]
    split <;> exact ⟨rfl, rfl⟩
  refine ⟨htrack.1.trans h.workspace, htrack.2.trans h.directory, fun other ho => ?_, h.directoryAt,
    h.files⟩
  rcases tracked_track ho with ho | rfl
  · exact h.tracked other ho
  · exact ⟨_, .dependency q, Dependency.isName_scratchName q, hp⟩

theorem writeDependency_ends {p : Path} {name : String} {content : Text.Bytes}
    {r : Except Failure Job} (h : job.Holds w place m.files) (hp : name = Dependency.scratchName p)
    (hw : (job.writeDependency name content).Ends m r m') :
    NoRefusal r ∧ (∀ e, r = .error e → Writes w place m m' job) ∧
      ∀ job', r = .ok job' → Writes w place m m' job' ∧
        m.files.PutsFile (place ++ [name]) content m'.files := by
  have hn : Path.IsName name := hp ▸ Dependency.isName_scratchName p
  have hpath : job.directory.join name = .ofLocation (place ++ [name]) := by
    rw [h.directory, Path.join_ofLocation h.directoryAt.direct.isName hn]
  simp only [Job.writeDependency, hpath] at hw
  rcases recorded_write_ends hw with ⟨e, hwrite, rfl⟩ | ⟨m₁, hwrite, ha', hsame, rfl⟩
  · obtain ⟨ha, hr, hsame, -⟩ := write_ends h.directoryAt hn (h.not_link _) hwrite
    refine ⟨hr.of_error, fun _ _ => ?_, by simp⟩
    have hfiles := hsame _ rfl
    exact ⟨ha, hfiles ▸ .refl _ _, hfiles ▸ h⟩
  · obtain ⟨ha, -, -, hputs⟩ := write_ends h.directoryAt hn (h.not_link _) hwrite
    replace hputs := hputs rfl
    rw [← hsame] at hputs
    refine ⟨noRefusal_ok _, by simp, fun job' hj => ?_⟩
    obtain rfl := Except.ok.inj hj
    obtain ⟨hconfined, hat, hfiles⟩ := h.puts hputs
    have hkept : job.Holds w place m'.files := ⟨h.workspace, h.directory, h.tracked, hat, hfiles⟩
    exact ⟨⟨ha.trans ha', hconfined, hkept.track (by rw [hp])⟩, hputs⟩

theorem Job.Holds.inputPath (h : job.Holds w place fs) (hne : place ≠ [])
    (hn : Path.IsName (inputName place)) : job.inputPath = .ofLocation (place ++ [inputName place]) := by
  have hnames := h.directoryAt.direct.isName
  rw [Job.inputPath, h.directory, ← inputName_eq hne hnames, Path.join_ofLocation hnames hn]

theorem writeInput_ends {text : String} {r : Except Failure Job} (h : job.Holds w place m.files)
    (hne : place ≠ []) (hn : Path.IsName (inputName place))
    (hw : (job.writeInput text).Ends m r m') :
    NoRefusal r ∧ (∀ e, r = .error e → Writes w place m m' job) ∧
      ∀ job', r = .ok job' → Writes w place m m' job' ∧
        m.files.PutsFile (place ++ [inputName place]) (Text.Utf8.encode text) m'.files := by
  simp only [Job.writeInput, h.inputPath hne hn] at hw
  rcases recorded_write_ends hw with ⟨e, hwrite, rfl⟩ | ⟨m₁, hwrite, ha', hsame, rfl⟩
  · obtain ⟨ha, hr, hsame, -⟩ := write_ends h.directoryAt hn (h.not_link _) hwrite
    refine ⟨hr.of_error, fun _ _ => ?_, by simp⟩
    have hfiles := hsame _ rfl
    exact ⟨ha, hfiles ▸ .refl _ _, hfiles ▸ h⟩
  · obtain ⟨ha, -, -, hputs⟩ := write_ends h.directoryAt hn (h.not_link _) hwrite
    replace hputs := hputs rfl
    rw [← hsame] at hputs
    refine ⟨noRefusal_ok _, by simp, fun job' hj => ?_⟩
    obtain rfl := Except.ok.inj hj
    obtain ⟨hconfined, hat, hfiles⟩ := h.puts hputs
    refine ⟨⟨ha.trans ha', hconfined, h.workspace, h.directory, ?_, hat, hfiles⟩, hputs⟩
    intro q hq
    simp only [Job.tracked, Option.toList_some, List.singleton_append, List.mem_cons] at hq
    rcases hq with rfl | hq
    · exact ⟨_, .input, hn, rfl⟩
    · exact h.tracked q (by simp [Job.tracked, hq])

/-- A job that its entrypoint was written into knows it. -/
theorem input_of_writeInput {text : String} (hw : (job.writeInput text).Ends m (.ok job') m') :
    job'.input = some job'.inputPath := by
  rw [Job.writeInput] at hw
  rcases recorded_write_ends hw with ⟨e, -, he⟩ | ⟨m₁, -, -, -, hdone⟩
  · cases he
  · obtain rfl := Except.ok.inj hdone
    rfl

/-! ## Free names -/

/-- A write under a name that is free or that of a file is made, when its path is not refused. -/
theorem write_of_fits {name : String} {content : Text.Bytes} {r : Except Failure Unit}
    (hat : m.files.IsDirectoryAt place) (hn : Path.IsName name)
    (hs : Text.utf8Size name.toList ≤ FileSystem.nameLimit)
    (hp : FileSystem.IsWalkable (.ofLocation (place ++ [name])))
    (hnode : m.files.node? (place ++ [name]) = none ∨
      ∃ old, m.files.node? (place ++ [name]) = some (.file old))
    (hw : (Job.write (.ofLocation (place ++ [name])) content).Ends m r m') : r = .ok () := by
  simp only [Job.write, Attempt.ends_mk, Run.ends_bind, Run.ends_pure, Machine.ends_change,
    FileSystem.write_child_of_fits hat hn hs hp hnode] at hw
  obtain ⟨made, m₁, ⟨fs, he, rfl, rfl⟩ | ⟨e, he, -⟩, rfl, rfl⟩ := hw
  · rfl
  · cases he

/-- A write under a name that is too long fails. -/
theorem write_of_long {name : String} {content : Text.Bytes} {r : Except Failure Unit}
    (hat : m.files.IsDirectoryAt place) (hn : Path.IsName name)
    (hs : FileSystem.nameLimit < Text.utf8Size name.toList)
    (hp : FileSystem.IsWalkable (.ofLocation (place ++ [name])))
    (hw : (Job.write (.ofLocation (place ++ [name])) content).Ends m r m') :
    r = .error (.scratchFile (.ofLocation (place ++ [name])) OsError.nameTooLong.message) := by
  simp only [Job.write, Attempt.ends_mk, Run.ends_bind, Run.ends_pure, Machine.ends_change,
    FileSystem.write_child_of_long hat hn hs hp] at hw
  obtain ⟨made, m₁, ⟨fs, he, -⟩ | ⟨e, he, rfl, rfl⟩, rfl, rfl⟩ := hw
  · cases he
  · cases he
    rfl

theorem writeDependency_of_free {name : String} {content : Text.Bytes} {r : Except Failure Job}
    (h : job.Holds w place m.files) (hn : Path.IsName name)
    (hs : Text.utf8Size name.toList ≤ FileSystem.nameLimit)
    (hp : FileSystem.IsWalkable (.ofLocation (place ++ [name])))
    (hfree : m.files.node? (place ++ [name]) = none)
    (hw : (job.writeDependency name content).Ends m r m') : ∃ job', r = .ok job' := by
  have hpath : job.directory.join name = .ofLocation (place ++ [name]) := by
    rw [h.directory, Path.join_ofLocation h.directoryAt.direct.isName hn]
  simp only [Job.writeDependency, hpath] at hw
  rcases recorded_write_ends hw with ⟨e, hwrite, -⟩ | ⟨_, -, -, -, rfl⟩
  · cases write_of_fits h.directoryAt hn hs hp (.inl hfree) hwrite
  · exact ⟨_, rfl⟩

theorem writeInput_of_free {text : String} {r : Except Failure Job}
    (h : job.Holds w place m.files) (hne : place ≠ []) (hn : Path.IsName (inputName place))
    (hs : Text.utf8Size (inputName place).toList ≤ FileSystem.nameLimit)
    (hp : FileSystem.IsWalkable (.ofLocation (place ++ [inputName place])))
    (hfree : m.files.node? (place ++ [inputName place]) = none)
    (hw : (job.writeInput text).Ends m r m') : ∃ job', r = .ok job' := by
  simp only [Job.writeInput, h.inputPath hne hn] at hw
  rcases recorded_write_ends hw with ⟨e, hwrite, -⟩ | ⟨_, -, -, -, rfl⟩
  · cases write_of_fits h.directoryAt hn hs hp (.inl hfree) hwrite
  · exact ⟨_, rfl⟩

end Galley.Workspace
