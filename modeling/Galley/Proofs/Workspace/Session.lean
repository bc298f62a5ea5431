import Galley.Proofs.Workspace.Dropping
import Mathlib.Data.List.Induction
import Mathlib.Logic.Relation

/-! # Sessions of a workspace

Jobs are opened, written into and dropped in any order, any number of them open at a time. Next to each open
job stands what was written into it; the files in its directory and those that it tracks are read off that. -/

namespace Galley.Workspace

/-- A file that is written into a job. -/
inductive Write where
  | input (text : String)
  | dependency (name : String) (content : Text.Bytes)
deriving DecidableEq, Repr

namespace Write

/-- The name of the file in the directory of the job. -/
def name (place : Location) : Write → String
  | .input _ => inputName place
  | .dependency name _ => name

def content : Write → Text.Bytes
  | .input text => Text.Utf8.encode text
  | .dependency _ content => content

def isInput : Write → Bool
  | .input _ => true
  | .dependency .. => false

def dependency? : Write → Option String
  | .input _ => none
  | .dependency name _ => some name

def into (job : Job) : Write → Attempt Job
  | .input text => job.writeInput text
  | .dependency name content => job.writeDependency name content

/-- A dependency has a name that can stand in a directory and is not that of the entrypoint. -/
def Fits (directory : Path) : Write → Prop
  | .input _ => True
  | .dependency name _ => Path.IsName name ∧ name ≠ directory.fileName ++ inputEnd

/-- Where a file is written. -/
def path (job : Job) : Write → Path
  | .input _ => job.inputPath
  | .dependency name _ => job.directory.join name

/-- A job that knows of a file. -/
def recordedIn (job : Job) : Write → Job
  | .input _ => { job with input := some job.inputPath }
  | .dependency name _ => job.track (job.directory.join name)

end Write

/-- What the last of some writes under a name wrote. -/
def content? (place : Location) (writes : List Write) (name : String) : Option Text.Bytes :=
  ((writes.filter fun x => x.name place = name).getLast?).map Write.content

/-- The names of the dependencies among some writes, each once, in the order of their first writes. -/
def dependencyNames (writes : List Write) : List String :=
  (writes.filterMap Write.dependency?).eraseDups

/-! ## Steps -/

/-- An open job with what was written into it. -/
structure OpenJob where
  job : Job
  writes : List Write

namespace OpenJob

/-- Where the directory of a job is. -/
def place (scratch : Location) (o : OpenJob) : Location := scratch ++ [o.job.directory.fileName]

/-- A job after one more file was written into it. -/
def after (o : OpenJob) (x : Write) : OpenJob := ⟨x.recordedIn o.job, o.writes ++ [x]⟩

end OpenJob

/-- A machine with the jobs that are open on it. -/
structure Session where
  machine : Machine
  jobs : List OpenJob

namespace Session

/-- What may be done in a session of a workspace: a job is opened, a file is written into an open job or an
open job is dropped. Where opening or writing fails, the jobs are as they were. -/
inductive Step (w : Workspace) : Session → Session → Prop where
  | begun {m m' : Machine} {jobs : List OpenJob} {job : Job} :
      w.begin.Ends m (.ok job) m' → Step w ⟨m, jobs⟩ ⟨m', jobs ++ [⟨job, []⟩]⟩
  | notBegun {m m' : Machine} {jobs : List OpenJob} {e : Failure} :
      w.begin.Ends m (.error e) m' → Step w ⟨m, jobs⟩ ⟨m', jobs⟩
  | wrote {m m' : Machine} {pre post : List OpenJob} {o : OpenJob} {x : Write} {job : Job} :
      x.Fits o.job.directory → (x.into o.job).Ends m (.ok job) m' →
        Step w ⟨m, pre ++ o :: post⟩ ⟨m', pre ++ ⟨job, o.writes ++ [x]⟩ :: post⟩
  | notWrote {m m' : Machine} {pre post : List OpenJob} {o : OpenJob} {x : Write} {e : Failure} :
      x.Fits o.job.directory → (x.into o.job).Ends m (.error e) m' →
        Step w ⟨m, pre ++ o :: post⟩ ⟨m', pre ++ o :: post⟩
  | dropped {m m' : Machine} {pre post : List OpenJob} {o : OpenJob} {u : Unit} :
      Run.Ends o.job.drop m u m' → Step w ⟨m, pre ++ o :: post⟩ ⟨m', pre ++ post⟩

/-- Any number of steps. -/
abbrev Steps (w : Workspace) : Session → Session → Prop := Relation.ReflTransGen (Step w)

end Session

variable {m m' : Machine} {w : Workspace} {job : Job} {place : Location}
  {fs fs' : FileSystem} {writes : List Write} {x : Write}

/-! ## What was written -/

theorem content?_append (place : Location) (writes : List Write) (x : Write) (name : String) :
    content? place (writes ++ [x]) name =
      if x.name place = name then some x.content else content? place writes name := by
  rw [content?, List.filter_append]
  by_cases hx : x.name place = name
  · simp [hx]
  · simp [hx, content?]

theorem dependencyNames_input (writes : List Write) (text : String) :
    dependencyNames (writes ++ [.input text]) = dependencyNames writes := by
  have hnone : [Write.input text].filterMap Write.dependency? = [] := rfl
  rw [dependencyNames, List.filterMap_append, hnone, List.append_nil, dependencyNames]

theorem dependencyNames_dependency (writes : List Write) (name : String) (content : Text.Bytes) :
    dependencyNames (writes ++ [.dependency name content]) =
      if name ∈ dependencyNames writes then dependencyNames writes
      else dependencyNames writes ++ [name] := by
  have hone : [Write.dependency name content].filterMap Write.dependency? = [name] := rfl
  rw [dependencyNames, List.filterMap_append, hone, dependencyNames]
  generalize writes.filterMap Write.dependency? = names
  rw [List.eraseDups_append]
  by_cases hmem : name ∈ names
  · simp [List.removeAll, hmem]
  · simp [List.removeAll, List.eraseDups_cons, hmem]

theorem nodup_dependencyNames (writes : List Write) : (dependencyNames writes).Nodup := by
  induction writes using List.reverseRecOn with
  | nil => exact .nil
  | append_singleton writes x ih =>
    cases x with
    | input text => rwa [dependencyNames_input]
    | dependency name content =>
      rw [dependencyNames_dependency]
      split
      · exact ih
      · next hmem =>
        rw [List.nodup_append]
        refine ⟨ih, by simp, fun a ha b hb he => hmem ?_⟩
        rw [List.mem_singleton] at hb
        rwa [← hb, ← he]

theorem mem_dependencyNames {name : String} :
    name ∈ dependencyNames writes ↔ ∃ content, Write.dependency name content ∈ writes := by
  rw [dependencyNames, List.mem_eraseDups, List.mem_filterMap]
  constructor
  · rintro ⟨x, hx, hn⟩
    cases x with
    | input text => cases hn
    | dependency name' content =>
      obtain rfl := Option.some.inj hn
      exact ⟨content, hx⟩
  · rintro ⟨content, hx⟩
    exact ⟨_, hx, rfl⟩

/-! ## Writing into a job -/

theorem Write.directory_recordedIn (x : Write) (job : Job) :
    (x.recordedIn job).directory = job.directory := by
  cases x with
  | input text => rfl
  | dependency name content =>
    rw [recordedIn, Job.track]
    split <;> rfl

theorem Write.workspace_recordedIn (x : Write) (job : Job) :
    (x.recordedIn job).workspace = job.workspace := by
  cases x with
  | input text => rfl
  | dependency name content =>
    rw [recordedIn, Job.track]
    split <;> rfl

theorem Write.input_recordedIn (x : Write) (job : Job) :
    (x.recordedIn job).input = if x.isInput then some job.inputPath else job.input := by
  cases x with
  | input text => rfl
  | dependency name content =>
    rw [recordedIn, Job.track]
    split <;> rfl

/-- Writing into a job fails and leaves it as it was, or is recorded in it. -/
theorem Write.into_ends {r : Except Failure Job} (h : (x.into job).Ends m r m') :
    (∃ e, (Job.write (x.path job) x.content).Ends m (.error e) m' ∧ r = .error e) ∨
      ∃ m₁, (Job.write (x.path job) x.content).Ends m (.ok ()) m₁ ∧ m₁.Alike m' ∧
        m'.files = m₁.files ∧ r = .ok (x.recordedIn job) := by
  cases x with
  | input text => exact recorded_write_ends h
  | dependency name content => exact recorded_write_ends h

/-! ## Open jobs -/

namespace OpenJob

theorem place_after (scratch : Location) (o : OpenJob) (x : Write) :
    (o.after x).place scratch = o.place scratch := by
  rw [OpenJob.place, after, Write.directory_recordedIn, OpenJob.place]

/-- The directory of a job contains the files that were written into it, each with what was written last,
and nothing else; the job tracks its entrypoint and each of its dependencies. -/
structure Holds (o : OpenJob) (w : Workspace) (place : Location) (fs : FileSystem) : Prop where
  workspace : o.job.workspace = w
  directory : o.job.directory = .ofLocation place
  named : Path.IsName (inputName place)
  fits : ∀ x ∈ o.writes, x.Fits o.job.directory
  directoryAt : fs.IsDirectoryAt place
  files : ∀ name, fs.node? (place ++ [name]) = (content? place o.writes name).map .file
  nothingElse : ∀ name rest, rest ≠ [] → fs.node? (place ++ name :: rest) = none
  input : o.job.input =
    if o.writes.any Write.isInput then some (.ofLocation (place ++ [inputName place])) else none
  dependencies : o.job.dependencies =
    (dependencyNames o.writes).map fun name => .ofLocation (place ++ [name])
  reached : ∃ earlier found, FileSystem.locate earlier o.job.directory false = .ok found

variable {o : OpenJob}

theorem Holds.fileName (h : o.Holds w place fs) (hne : place ≠ []) :
    o.job.directory.fileName ++ inputEnd = inputName place := by
  rw [h.directory, inputName_eq hne h.directoryAt.direct.isName]

/-- What is written gets a name in the directory of the job. -/
theorem Holds.isName (h : o.Holds w place fs) (hx : x.Fits o.job.directory) :
    Path.IsName (x.name place) := by
  cases x with
  | input text => exact h.named
  | dependency name content => exact hx.1

theorem Holds.path (h : o.Holds w place fs) (hne : place ≠ []) (hx : x.Fits o.job.directory) :
    x.path o.job = .ofLocation (place ++ [x.name place]) := by
  have hname := h.isName hx
  have hnames := h.directoryAt.direct.isName
  cases x with
  | input text =>
    rw [Write.path, Job.inputPath, h.fileName hne, h.directory]
    exact Path.join_ofLocation hnames hname
  | dependency name content =>
    rw [Write.path, h.directory]
    exact Path.join_ofLocation hnames hname

theorem Holds.not_link (h : o.Holds w place fs) (name target : String) :
    fs.node? (place ++ [name]) ≠ some (.link target) := by
  rw [h.files]
  cases content? place o.writes name <;> simp

/-- A dependency is tracked unless it is tracked already. -/
theorem Holds.dependencies_after (h : o.Holds w place fs) (hne : place ≠ [])
    (hx : x.Fits o.job.directory) :
    (o.after x).job.dependencies =
      (dependencyNames (o.writes ++ [x])).map fun name => .ofLocation (place ++ [name]) := by
  cases x with
  | input text =>
    rw [dependencyNames_input, ← h.dependencies]
    rfl
  | dependency name content =>
    have hpath : o.job.directory.join name = .ofLocation (place ++ [name]) := h.path hne hx
    have hnames : ∀ other, Path.IsName other → ∀ n ∈ place ++ [other], Path.IsName n := fun other ho =>
      List.forall_mem_append.2 ⟨h.directoryAt.direct.isName, List.forall_mem_singleton.2 ho⟩
    have hany : (o.job.dependencies.any (·.same (.ofLocation (place ++ [name])))) = true ↔
        name ∈ dependencyNames o.writes := by
      rw [h.dependencies, List.any_eq_true]
      constructor
      · rintro ⟨p, hp, hsame⟩
        obtain ⟨other, ho, rfl⟩ := List.mem_map.1 hp
        obtain ⟨content', hw⟩ := mem_dependencyNames.1 ho
        have hplace := Path.eq_of_same_ofLocation (hnames other (h.fits _ hw).1) (hnames name hx.1) hsame
        obtain rfl : other = name := by simpa using hplace
        exact ho
      · intro hm
        exact ⟨_, List.mem_map_of_mem hm, by rw [Path.same, beq_self_eq_true]⟩
    rw [after, Write.recordedIn, hpath, dependencyNames_dependency]
    by_cases hm : name ∈ dependencyNames o.writes
    · rw [Job.track, if_pos (hany.2 hm), if_pos hm, h.dependencies]
    · rw [Job.track, if_neg (mt hany.1 hm), if_neg hm, List.map_append, ← h.dependencies]
      rfl

/-- A file that was put into the directory of a job is one more that the job holds. -/
theorem Holds.puts (h : o.Holds w place fs) (hne : place ≠ []) (hx : x.Fits o.job.directory)
    (hputs : fs.PutsFile (place ++ [x.name place]) x.content fs') : (o.after x).Holds w place fs' where
  workspace := (x.workspace_recordedIn _).trans h.workspace
  directory := (x.directory_recordedIn _).trans h.directory
  named := h.named
  fits y hy := by
    rw [after, Write.directory_recordedIn]
    rcases List.mem_append.1 hy with hy | hy
    · exact h.fits y hy
    · rwa [List.mem_singleton.1 hy]
  directoryAt := h.directoryAt.of_directories fun _ hd => hputs.keeps_directories hd
  files name := by
    rw [hputs.node?, after, content?_append, h.files]
    by_cases hname : x.name place = name
    · simp [hname]
    · rw [if_neg hname, if_neg (by simpa using Ne.symm hname)]
  nothingElse name rest hrest := by
    rw [hputs.node?, if_neg (by simp [hrest]), h.nothingElse name rest hrest]
  input := by
    rw [after, Write.input_recordedIn, List.any_append, h.input]
    cases hinput : x.isInput with
    | true =>
      have hpath := h.path hne hx
      cases x with
      | input text =>
        rw [Write.path] at hpath
        simp [hpath, Write.isInput, Write.name]
      | dependency name content => cases hinput
    | false => simp [hinput]
  dependencies := h.dependencies_after hne hx
  reached := by
    rw [after, Write.directory_recordedIn]
    exact h.reached

/-- What a job holds depends on its directory, what leads there and what lies in it. -/
theorem Holds.of_agree (h : o.Holds w place fs)
    (hsame : ∀ other, other <+: place ∨ place <+: other → fs'.node? other = fs.node? other) :
    o.Holds w place fs' where
  workspace := h.workspace
  directory := h.directory
  named := h.named
  fits := h.fits
  directoryAt :=
    ⟨⟨h.directoryAt.direct.isName, h.directoryAt.direct.short, fun front hf hne =>
      (hsame front (.inl hf)).trans (h.directoryAt.direct.onTheWay front hf hne)⟩,
      (hsame place (.inl (List.prefix_refl _))).trans h.directoryAt.node⟩
  files name := (hsame _ (.inr (List.prefix_append _ _))).trans (h.files name)
  nothingElse name rest hrest := (hsame _ (.inr (List.prefix_append _ _))).trans
    (h.nothingElse name rest hrest)
  input := h.input
  dependencies := h.dependencies
  reached := h.reached

/-- A job that was opened holds nothing yet. -/
theorem holds_of_opens (h : OpensJob w fs job place fs') (ht : fs.IsTree) :
    (OpenJob.mk job []).Holds w place fs' where
  workspace := h.workspace
  directory := h.directory
  named := by
    obtain ⟨directory, name, hp⟩ := h.named
    exact isName_inputName hp h.directoryAt.direct.isName
  fits x hx := by cases hx
  directoryAt := h.directoryAt
  files name := by
    rw [h.puts.node?, if_neg (by simp), ht.none_beneath h.puts.before (List.prefix_append _ _)]
    rfl
  nothingElse name rest _ := by
    rw [h.puts.node?, if_neg (by simp), ht.none_beneath h.puts.before (List.prefix_append _ _)]
  input := h.input
  dependencies := h.dependencies
  reached := ⟨fs, h.reached⟩

/-- The names of the files that a job tracks. -/
def trackedNames (place : Location) (o : OpenJob) : List String :=
  (if o.writes.any Write.isInput then [inputName place] else []) ++ dependencyNames o.writes

theorem Holds.tracked (h : o.Holds w place fs) :
    o.job.tracked = (o.trackedNames place).map fun name => .ofLocation (place ++ [name]) := by
  rw [Job.tracked, h.input, h.dependencies, trackedNames, List.map_append]
  split <;> rfl

theorem Holds.nodup_trackedNames (h : o.Holds w place fs) (hne : place ≠ []) :
    (o.trackedNames place).Nodup := by
  rw [trackedNames, List.nodup_append]
  refine ⟨by split <;> simp, nodup_dependencyNames _, fun a ha b hb hab => ?_⟩
  have hinput : a = inputName place := by
    split at ha
    · exact List.mem_singleton.1 ha
    · cases ha
  obtain ⟨content, hwritten⟩ := mem_dependencyNames.1 hb
  refine (h.fits _ hwritten).2 ?_
  rw [← hab, hinput, h.fileName hne]

/-- Where nothing is preserved, dropping a job removes its directory and nothing else. -/
theorem Holds.drop_ends {u : Unit} (h : o.Holds w place m.files) (hne : place ≠ [])
    (hd : w.debugDirectory = none) (hdrop : Run.Ends o.job.drop m u m') :
    m.Alike m' ∧ m'.files = m.files.remove place := by
  obtain ⟨front, name, rfl⟩ : ∃ front name, place = front ++ [name] :=
    ⟨_, _, (List.dropLast_concat_getLast hne).symm⟩
  simp only [Job.drop, h.workspace, hd] at hdrop
  obtain ⟨ha, hremoval⟩ := removal_ends hdrop
  obtain ⟨earlier, found, hreached⟩ := h.reached
  have hdirect := h.directoryAt.direct
  rw [h.directory] at hreached hremoval
  rw [FileSystem.removeTree_child h.directoryAt.above (hdirect.isName name (by simp))
    (hdirect.short name (by simp)) hreached h.directoryAt.node] at hremoval
  rcases hremoval with hok | ⟨e, he, -⟩
  · exact ⟨ha, (Except.ok.inj hok).symm⟩
  · cases he

end OpenJob

end Galley.Workspace
