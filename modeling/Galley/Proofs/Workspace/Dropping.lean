import Galley.Proofs.Dependency.ScratchName
import Galley.Proofs.FileSystem.Ways
import Galley.Proofs.Workspace.Writing

/-! # Dropping a job

The files of a job are copied when there is a debug directory: a copy goes where its path leads, under the
time and the name of the file. Then the directory of the job is removed with all that lies in it. -/

namespace Galley

namespace FileSystem

variable {fs fs' fs'' : FileSystem} {targets : Path → Prop} {place : Location}

/-- One of some paths leads to a location. -/
def LeadsTo (fs : FileSystem) (targets : Path → Prop) (place : Location) : Prop :=
  ∃ p, targets p ∧ ∃ found, fs.locate p = .ok found ∧ found.location = place

/-- Files were written, each where one of some paths leads. -/
structure Copies (targets : Path → Prop) (fs fs' : FileSystem) : Prop where
  kept : ∀ place, ¬fs.LeadsTo targets place → fs'.node? place = fs.node? place
  leads : ∀ place, fs'.LeadsTo targets place → fs.LeadsTo targets place
  directories : ∀ place, fs.node? place = some .directory → fs'.node? place = some .directory
  isTree : fs.IsTree → fs'.IsTree

theorem Copies.refl (targets : Path → Prop) (fs : FileSystem) : Copies targets fs fs :=
  ⟨fun _ _ => rfl, fun _ => id, fun _ => id, id⟩

theorem Copies.trans (h : Copies targets fs fs') (h' : Copies targets fs' fs'') :
    Copies targets fs fs'' :=
  ⟨fun place hp => (h'.kept place fun hl => hp (h.leads place hl)).trans (h.kept place hp),
    fun place hl => h.leads place (h'.leads place hl),
    fun place hd => h'.directories place (h.directories place hd),
    fun ht => h'.isTree (h.isTree ht)⟩

theorem copies_of_copy {source target : Path} (ht : targets target)
    (h : fs.copy source target = .ok fs') : Copies targets fs fs' := by
  simp only [copy, bind, Except.bind] at h
  split at h
  · cases h
  · next content _ =>
    obtain ⟨found, hl, hputs⟩ := puts_of_write h
    refine ⟨fun place hp => ?_, fun place ⟨other, ho, found', hl', he⟩ => ?_, fun place hd => ?_,
      hputs.isTree⟩
    · rw [hputs.node?, if_neg]
      rintro rfl
      exact hp ⟨target, ht, found, hl, rfl⟩
    · rw [hputs.after] at hl'
      obtain ⟨before, hb, he'⟩ := locate_set_file hputs.isPlace.ne_nil hputs.before hl'
      exact ⟨other, ho, before, hb, he'.trans he⟩
    · exact hputs.keeps_directories hd

/-- Files were written, over files or where nothing was, each with a content of a kind. -/
structure Fills (contents : Text.Bytes → Prop) (fs fs' : FileSystem) : Prop where
  node : ∀ place, fs'.node? place = fs.node? place ∨
    ∃ content, contents content ∧ fs'.node? place = some (.file content)
  read : ∀ p content, fs'.read p = .ok content → fs.read p = .ok content ∨ contents content

theorem Fills.refl (contents : Text.Bytes → Prop) (fs : FileSystem) : Fills contents fs fs :=
  ⟨fun _ => .inl rfl, fun _ _ => .inl⟩

theorem Fills.trans {contents : Text.Bytes → Prop} (h : Fills contents fs fs')
    (h' : Fills contents fs' fs'') : Fills contents fs fs'' := by
  refine ⟨fun place => ?_, fun p content hr => ?_⟩
  · rcases h'.node place with hsame | hfilled
    · exact hsame ▸ h.node place
    · exact .inr hfilled
  · exact (h'.read p content hr).elim (h.read p content) .inr

/-- What is read of a path after a file was written is what was read before, unless the path leads to that
file. -/
theorem fills_of_puts {contents : Text.Bytes → Prop} {content : Text.Bytes} (hc : contents content)
    (h : fs.PutsFile place content fs') : Fills contents fs fs' := by
  refine ⟨fun other => ?_, fun p read hr => ?_⟩
  · rw [h.node?]
    split
    · exact .inr ⟨content, hc, rfl⟩
    · exact .inl rfl
  · by_cases ha : fs.Avoids p place
    · rw [h.after] at hr
      exact .inl ((read_set_file ha h.isPlace.ne_nil h.before read).1 hr)
    · obtain ⟨found, hl, rfl⟩ : ∃ found, fs.locate p = .ok found ∧ found.location = place := by
        simpa [Avoids] using ha
      obtain ⟨other, hf, hnode⟩ := status_eq_ok_iff.1 (read_eq_ok_iff.1 hr)
      rw [find_eq_ok_iff, h.after] at hf
      obtain ⟨before, hb, he⟩ := locate_set_file h.isPlace.ne_nil h.before hf
      obtain rfl := Except.ok.inj (hl.symm.trans hb)
      have hother : other = found.location := he.symm
      rw [h.node?, if_pos hother] at hnode
      obtain rfl : content = read := by simpa using hnode
      exact .inr hc

theorem fills_of_copy {contents : Text.Bytes → Prop} {source target : Path} (hempty : contents [])
    (hsource : ∀ content, fs.read source = .ok content → contents content)
    (h : fs.copy source target = .ok fs') : Fills contents fs fs' := by
  simp only [copy, bind, Except.bind] at h
  split at h
  · cases h
  · next content hread =>
    obtain ⟨found, -, hputs⟩ := puts_of_write h
    refine fills_of_puts ?_ hputs
    split
    · exact hempty
    · exact hsource content hread

theorem isFile_of_copy {source target : Path} (h : fs.copy source target = .ok fs') :
    fs.isFile source = true := by
  simp only [copy, bind, Except.bind] at h
  split at h
  · cases h
  · next content hread => exact isFile_iff.2 ⟨content, hread⟩

/-- A copy to where a file stands is made, and the old content is lost. -/
theorem copy_of_find {source target : Path} {content old : Text.Bytes} (hr : fs.read source = .ok content)
    (hf : fs.find target = .ok place) (hold : fs.node? place = some (.file old)) :
    ∃ written, (written = [] ∨ written = content) ∧
      fs.copy source target = .ok (fs.set place (.file written)) := by
  rw [find_eq_ok_iff] at hf
  simp only [copy, hr, bind, Except.bind, write, hf, hold]
  refine ⟨_, ?_, rfl⟩
  split
  · exact .inl rfl
  · exact .inr rfl

/-! ## Removing a directory -/

/-- A directory whose path was not refused before is removed. -/
theorem removeTree_child {before : FileSystem} {name : String} {found : Place}
    (h : fs.IsDirectoryAt place) (hn : Path.IsName name) (hs : Text.utf8Size name.toList ≤ nameLimit)
    (hp : before.locate (.ofLocation (place ++ [name])) false = .ok found)
    (hnode : fs.node? (place ++ [name]) = some .directory) :
    fs.removeTree (.ofLocation (place ++ [name])) = .ok (fs.remove (place ++ [name])) := by
  have hlocate : fs.locate (.ofLocation (place ++ [name])) false = .ok (.taken (place ++ [name])) := by
    rw [locate_eq_walk hp, namesFromRoot, if_pos (Path.isAbsolute_ofLocation _), segments_child h hn,
      walk, if_pos (by rfl), walk_through (by simpa using h.direct) (by simpa using h.node), walk,
      if_neg (by simp [hn.notIdle]), if_neg hn.notParent, if_neg (by omega), String.ofList_toList]
    simp [hnode, walk]
  simp [removeTree, find_eq_ok_iff.2 hlocate, hnode, bind, Except.bind]

/-- A directory that is gone is not removed, unless links stand where it was. -/
theorem removeTree_absent {name : String} (hplace : ∀ n ∈ place, Path.IsName n)
    (hn : Path.IsName name)
    (hlinks : ∀ front, front <+: place → ∀ target, fs.node? front ≠ some (.link target))
    (hnode : fs.node? (place ++ [name]) = none) (fs' : FileSystem) :
    fs.removeTree (.ofLocation (place ++ [name])) ≠ .ok fs' := by
  intro hr
  simp only [removeTree, bind, Except.bind] at hr
  split at hr
  · cases hr
  · next other hf =>
    have hl := find_eq_ok_iff.1 hf
    cases locate_child_free (directoryAt_of_locate hplace hn hlinks hl) hn hnode hl

/-- Nothing is a file in a directory that is gone. -/
theorem not_isFile_child {name : String} (hplace : ∀ n ∈ place, Path.IsName n) (hn : Path.IsName name)
    (hlinks : ∀ front, front <+: place → ∀ target, fs.node? front ≠ some (.link target))
    (hnode : fs.node? place = none) : fs.isFile (.ofLocation (place ++ [name])) = false := by
  rw [isFile]
  split
  · next content hs =>
    obtain ⟨found, hf, -⟩ := status_eq_ok_iff.1 hs
    have hd := directoryAt_of_locate hplace hn hlinks (find_eq_ok_iff.1 hf)
    rw [hd.node] at hnode
    cases hnode
  · rfl

end FileSystem

namespace Workspace

open FileSystem (Copies Fills)

variable {m m' : Machine} {u : Unit} {debugDirectory p : Path} {role : Role} {paths : List Path}

/-- What preserving a file comes to: what is no file is passed over, and a copy is made or refused. -/
inductive Preserved (debugDirectory : Path) (role : Role) (p : Path) (m : Machine) : FileSystem → Prop where
  | skipped : m.files.isFile p = false → Preserved debugDirectory role p m m.files
  | copied {n : Nat} {fs : FileSystem} :
      m.files.copy p (copyPath debugDirectory (m.clock n) role p) = .ok fs →
      Preserved debugDirectory role p m fs
  | refused {n : Nat} {e : OsError} : m.files.isFile p = true →
      m.files.copy p (copyPath debugDirectory (m.clock n) role p) = .error e →
      Preserved debugDirectory role p m m.files

theorem preserve_ends (h : Run.Ends (preserve debugDirectory role p) m u m') :
    m.Alike m' ∧ Preserved debugDirectory role p m m'.files := by
  simp only [preserve, Run.ends_bind, Machine.ends_getFiles] at h
  obtain ⟨_, _, ⟨rfl, rfl⟩, h⟩ := h
  split at h
  · next hfile =>
    simp only [Run.ends_bind, Machine.ends_lookAtClock] at h
    obtain ⟨time, _, ⟨rfl, rfl⟩, made, m₁, hchange, h⟩ := h
    rcases Machine.ends_change.1 hchange with ⟨fs, hcopy, rfl, rfl⟩ | ⟨e, hcopy, rfl, rfl⟩
    · obtain rfl := Machine.ends_report.1 h
      exact ⟨⟨rfl, rfl, rfl, rfl⟩, .copied hcopy⟩
    · obtain rfl := Machine.ends_report.1 h
      exact ⟨⟨rfl, rfl, rfl, rfl⟩, .refused hfile hcopy⟩
  · next hfile =>
    obtain ⟨-, rfl⟩ := Run.ends_pure.1 h
    exact ⟨.refl _, .skipped (by simpa using hfile)⟩

namespace Preserved

variable {fs : FileSystem}

theorem eq_of_not_isFile (h : Preserved debugDirectory role p m fs) (hp : m.files.isFile p = false) :
    fs = m.files := by
  cases h with
  | skipped | refused => rfl
  | copied hcopy =>
    have hfile : m.files.isFile p = true := FileSystem.isFile_of_copy hcopy
    simp [hp] at hfile

theorem copies {targets : Path → Prop} (h : Preserved debugDirectory role p m fs)
    (ht : ∀ n, targets (copyPath debugDirectory (m.clock n) role p)) : Copies targets m.files fs := by
  cases h with
  | skipped | refused => exact .refl _ _
  | copied hcopy => exact FileSystem.copies_of_copy (ht _) hcopy

theorem fills {contents : Text.Bytes → Prop} (h : Preserved debugDirectory role p m fs)
    (hempty : contents []) (hp : ∀ content, m.files.read p = .ok content → contents content) :
    Fills contents m.files fs := by
  cases h with
  | skipped | refused => exact .refl _ _
  | copied hcopy => exact FileSystem.fills_of_copy hempty hp hcopy

end Preserved

/-- What copying files does: nothing where none is a file. -/
theorem preserveAll_ends (h : Run.Ends (preserveAll debugDirectory role paths) m u m') :
    m.Alike m' ∧ ((∀ p ∈ paths, m.files.isFile p = false) → m'.files = m.files) ∧
      (∀ targets, (∀ p ∈ paths, ∀ n, targets (copyPath debugDirectory (m.clock n) role p)) →
        Copies targets m.files m'.files) ∧
      ∀ contents : Text.Bytes → Prop, contents [] →
        (∀ p ∈ paths, ∀ content, m.files.read p = .ok content → contents content) →
        Fills contents m.files m'.files := by
  induction paths generalizing m with
  | nil =>
    obtain ⟨-, rfl⟩ := Run.ends_pure.1 h
    exact ⟨.refl _, fun _ => rfl, fun _ _ => .refl _ _, fun _ _ _ => .refl _ _⟩
  | cons p paths ih =>
    obtain ⟨_, m₁, hone, h⟩ := Run.ends_bind.1 h
    obtain ⟨ha, hpreserved⟩ := preserve_ends hone
    obtain ⟨ha', hnone, hcopies, hfills⟩ := ih h
    refine ⟨ha.trans ha', fun hall => ?_, fun targets htargets => ?_, fun contents hempty hreads => ?_⟩
    · have hsame := hpreserved.eq_of_not_isFile (hall p (by simp))
      rw [hnone fun q hq => hsame ▸ hall q (List.mem_cons_of_mem _ hq), hsame]
    · refine (hpreserved.copies (htargets p (by simp))).trans (hcopies _ fun q hq n => ?_)
      exact ha.clock ▸ htargets q (List.mem_cons_of_mem _ hq) n
    · have hfirst := hpreserved.fills hempty (hreads p (by simp))
      refine hfirst.trans (hfills _ hempty fun q hq content hr => ?_)
      exact (hfirst.read q content hr).elim (hreads q (List.mem_cons_of_mem _ hq) content) id

/-- The paths that the copies of the files of a job get. -/
def Job.IsCopyPath (job : Job) (clock : Nat → String) (target : Path) : Prop :=
  ∃ debug, job.workspace.debugDirectory = some debug ∧
    ∃ n role, ∃ p ∈ job.tracked, target = copyPath debug (clock n) role p

/-- The names of those copies. -/
def IsCopyName (clock : Nat → String) (place : Location) (name : String) : Prop :=
  ∃ n role file, NamesFile place file ∧ name = clock n ++ "_" ++ Role.name role ++ "_" ++ file

/-- The times that the clock shows can stand in a path. -/
def ClockFits (m : Machine) : Prop := ∀ n, '/' ∉ (m.clock n).toList

theorem isName_copy {time file : String} (h : '/' ∉ time.toList) (hf : '/' ∉ file.toList) (role : Role) :
    Path.IsName (time ++ "_" ++ role.name ++ "_" ++ file) := by
  have hrole : '/' ∉ role.name.toList := by cases role <;> decide
  have hmem : '_' ∈ (time ++ "_" ++ role.name ++ "_" ++ file).toList := by simp
  refine ⟨by simp [h, hrole, hf], ?_, fun he => ?_⟩
  · rw [Path.isIdle, Bool.or_eq_false_iff, beq_eq_false_iff_ne]
    refine ⟨by simp, fun he => ?_⟩
    rw [he] at hmem
    simp at hmem
  · rw [he] at hmem
    simp at hmem

/-- A copy gets a name in the debug directory. -/
theorem Job.IsCopyPath.exists_name {job : Job} {w : Workspace} {place : Location} {fs : FileSystem}
    {target : Path} (h : job.IsCopyPath m.clock target) (hc : ClockFits m)
    (hjob : job.Holds w place fs) :
    ∃ debug name, job.workspace.debugDirectory = some debug ∧ IsCopyName m.clock place name ∧
      Path.IsName name ∧ target = debug.join name := by
  obtain ⟨debug, hd, n, role, p, hp, rfl⟩ := h
  obtain ⟨file, hnames, hf, rfl⟩ := hjob.tracked p hp
  have hfile : (Path.ofLocation (place ++ [file])).fileName = file :=
    Path.fileName_ofLocation
      (List.forall_mem_append.2 ⟨hjob.directoryAt.direct.isName, List.forall_mem_singleton.2 hf⟩)
  refine ⟨debug, _, hd, ⟨n, role, file, hnames, rfl⟩, isName_copy (hc n) hf.noSlash role, ?_⟩
  rw [copyPath, hfile]

/-- What a copy of a file of a job holds: what was read of a file, or nothing when one was copied onto
itself. -/
def Job.IsCopied (job : Job) (fs : FileSystem) (content : Text.Bytes) : Prop :=
  content = [] ∨ ∃ p ∈ job.tracked, fs.read p = .ok content

/-- How dropping a job ends: files are copied when there is a debug directory, then the directory of the
job is removed if it can be. -/
structure Drops (job : Job) (m m' : Machine) (copied : FileSystem) : Prop where
  alike : m.Alike m'
  uncopied : (∀ p ∈ job.tracked, m.files.isFile p = false) → copied = m.files
  copies : Copies (job.IsCopyPath m.clock) m.files copied
  fills : Fills (job.IsCopied m.files) m.files copied
  /-- The entrypoint is copied over a file to which the path of its copy leads. -/
  overwrites : ∀ {debug p place old}, job.workspace.debugDirectory = some debug → job.input = some p →
    m.files.isFile p = true → m.files.node? place = some (.file old) →
    (∀ n, m.files.find (copyPath debug (m.clock n) .input p) = .ok place) →
    ∃ content, job.IsCopied m.files content ∧ copied.node? place = some (.file content)
  removal : copied.removeTree job.directory = .ok m'.files ∨
    ∃ e, copied.removeTree job.directory = .error e ∧ m'.files = copied

theorem removal_ends {job : Job} (h : Run.Ends (do
      if let .error e ← Machine.change (·.removeTree job.directory) then
        Machine.report (.jobRemovalFailed job.directory.text (messageAt e job.directory))) m u m') :
    m.Alike m' ∧ (m.files.removeTree job.directory = .ok m'.files ∨
      ∃ e, m.files.removeTree job.directory = .error e ∧ m'.files = m.files) := by
  obtain ⟨r, m₁, hchange, hreport⟩ := Run.ends_bind.1 h
  rcases Machine.ends_change.1 hchange with ⟨fs, hremove, rfl, rfl⟩ | ⟨e, hremove, rfl, rfl⟩
  · obtain ⟨-, rfl⟩ := Run.ends_pure.1 hreport
    exact ⟨⟨rfl, rfl, rfl, rfl⟩, .inl hremove⟩
  · obtain rfl := Machine.ends_report.1 hreport
    exact ⟨⟨rfl, rfl, rfl, rfl⟩, .inr ⟨e, hremove, rfl⟩⟩

/-- A file to which the path of a copy leads, whatever the time, is overwritten. -/
theorem Preserved.overwrites {fs : FileSystem} {place : Location} {old : Text.Bytes}
    (h : Preserved debugDirectory role p m fs) (hp : m.files.isFile p = true)
    (hold : m.files.node? place = some (.file old))
    (hf : ∀ n, m.files.find (copyPath debugDirectory (m.clock n) role p) = .ok place) :
    ∃ content, (content = [] ∨ m.files.read p = .ok content) ∧ fs.node? place = some (.file content) := by
  obtain ⟨content, hr⟩ := FileSystem.isFile_iff.1 hp
  have hmade := fun n => FileSystem.copy_of_find hr (hf n) hold
  cases h with
  | skipped hskipped => simp [hp] at hskipped
  | @refused n _ _ hcopy =>
    obtain ⟨written, -, hcopied⟩ := hmade n
    cases hcopy.symm.trans hcopied
  | @copied n _ hcopy =>
    obtain ⟨written, hwritten, hcopied⟩ := hmade n
    obtain rfl := Except.ok.inj (hcopy.symm.trans hcopied)
    refine ⟨written, hwritten.imp_right (by rintro rfl; exact hr), ?_⟩
    rw [FileSystem.node?_set _ _ _ _ (fun he => by simp [he, FileSystem.node?_root] at hold), if_pos rfl]

theorem drop_ends {job : Job} (h : Run.Ends job.drop m u m') : ∃ copied, Drops job m m' copied := by
  simp only [Job.drop] at h
  cases hd : job.workspace.debugDirectory with
  | none =>
    simp only [hd] at h
    obtain ⟨ha, hremoval⟩ := removal_ends h
    exact ⟨m.files, ha, fun _ => rfl, .refl _ _, .refl _ _, fun h' => (by simp [hd] at h'), hremoval⟩
  | some debug =>
    simp only [hd] at h
    obtain ⟨_, m₁, hinput, h⟩ := Run.ends_bind.1 h
    obtain ⟨_, m₂, hdependencies, h⟩ := Run.ends_bind.1 h
    obtain ⟨ha, hnone, hcopies, hfills⟩ := preserveAll_ends hinput
    obtain ⟨ha', hnone', hcopies', hfills'⟩ := preserveAll_ends hdependencies
    obtain ⟨ha'', hremoval⟩ := removal_ends h
    have hfirst : Fills (job.IsCopied m.files) m.files m₁.files :=
      hfills _ (.inl rfl) fun p hp content hr => .inr ⟨p, by simp [Job.tracked, hp], hr⟩
    have hrest : Fills (job.IsCopied m.files) m₁.files m₂.files :=
      hfills' _ (.inl rfl) fun p hp content hr => (hfirst.read p content hr).elim
        (fun hr => .inr ⟨p, by simp [Job.tracked, hp], hr⟩) id
    refine ⟨m₂.files, (ha.trans ha').trans ha'', fun hall => ?_, ?_, hfirst.trans hrest, ?_, hremoval⟩
    · have hsame := hnone fun p hp => hall p (by simp [Job.tracked, hp])
      rw [hnone' fun p hp => hsame ▸ hall p (by simp [Job.tracked, hp]), hsame]
    · refine (hcopies _ fun p hp n => ?_).trans (hcopies' _ fun p hp n => ?_)
      · exact ⟨debug, hd, n, .input, p, by simp [Job.tracked, hp], rfl⟩
      · exact ⟨debug, hd, n, .dependency, p, by simp [Job.tracked, hp], by rw [ha.clock]⟩
    · intro debug' p place old hdebug hp hfile hold hf
      obtain rfl : debug = debug' := Option.some.inj (hd.symm.trans hdebug)
      simp only [hp, Option.toList_some, preserveAll, Run.ends_bind, Run.ends_pure] at hinput
      obtain ⟨_, m₃, hpreserve, -, rfl⟩ := hinput
      obtain ⟨content, hcontent, hnode⟩ := (preserve_ends hpreserve).2.overwrites hfile hold hf
      rcases hrest.node place with hsame | hfilled
      · exact ⟨content, hcontent.imp_right fun hr => ⟨p, by simp [Job.tracked, hp], hr⟩, hsame.trans hnode⟩
      · exact hfilled

/-- Files among which nothing took the place of a directory: it is there or gone, and no link stands on
the way to it. -/
structure Spares (place : Location) (fs : FileSystem) : Prop where
  isTree : fs.IsTree
  stands : fs.node? place = some .directory ∨ fs.node? place = none
  unlinked : ∀ front, front <+: place → ∀ target, fs.node? front ≠ some (.link target)

theorem spares_of_directory {place : Location} {fs : FileSystem} (ht : fs.IsTree)
    (hd : fs.node? place = some .directory) : Spares place fs :=
  ⟨ht, .inl hd, fun front hf target => by simp [ht.directory_above hd hf]⟩

/-- Of some files, those below a place are gone, and all others are left. -/
structure Removes (place : Location) (fs fs' : FileSystem) : Prop where
  isTree : fs'.IsTree
  gone : ∀ rest, fs'.node? (place ++ rest) = none
  others : ∀ other, ¬place <+: other → fs'.node? other = fs.node? other

/-- A directory that was removed is gone with what it contained, and nothing else is. -/
theorem confined_remove (fs : FileSystem) {place : Location} (hne : place ≠ []) :
    (∀ rest, (fs.remove place).node? (place ++ rest) = none) ∧ Confined place fs (fs.remove place) := by
  refine ⟨fun rest => ?_, fun other ho => ?_, fun ht => ht.remove⟩
  · rw [FileSystem.node?_remove, if_neg (by simp [hne])]
  · rw [FileSystem.node?_remove, if_pos (.inr ho)]

/-- What a job leaves when it is dropped: nothing of its directory, and all else but the copies. -/
structure LeavesNothing (targets : Path → Prop) (place : Location) (fs fs' : FileSystem) : Prop where
  isTree : fs'.IsTree
  gone : ∀ rest, fs'.node? (place ++ rest) = none
  others : ∀ other, ¬place <+: other → ¬fs.LeadsTo targets other → fs'.node? other = fs.node? other

/-- A directory that is still there is removed after the copies. -/
theorem Drops.removes_of_directory {job : Job} {w : Workspace} {front : Location} {name : String}
    {copied before earlier : FileSystem} {found : FileSystem.Place} (h : Drops job m m' copied)
    (hjob : job.Holds w (front ++ [name]) before)
    (hreached : earlier.locate job.directory false = .ok found) (ht : m.files.IsTree)
    (hd : m.files.node? (front ++ [name]) = some .directory) :
    Removes (front ++ [name]) copied m'.files := by
  have htree := h.copies.isTree ht
  have hcopied := h.copies.directories _ hd
  have hdirect := hjob.directoryAt.direct
  have hat : copied.IsDirectoryAt (front ++ [name]) :=
    ⟨⟨hdirect.isName, hdirect.short, fun _ ho _ => htree.directory_above hcopied ho⟩, hcopied⟩
  have hremoval := h.removal
  rw [hjob.directory] at hreached hremoval
  rw [FileSystem.removeTree_child hat.above (hdirect.isName name (by simp))
    (hdirect.short name (by simp)) hreached hcopied] at hremoval
  rcases hremoval with hok | ⟨e, he, -⟩
  · obtain ⟨hgone, hconfined⟩ := confined_remove copied (by simp : front ++ [name] ≠ [])
    rw [← Except.ok.inj hok]
    exact ⟨htree.remove, hgone, hconfined.others⟩
  · cases he

/-- Of a directory that is gone, nothing is copied and nothing has to be removed. -/
theorem Drops.removes_of_none {job : Job} {w : Workspace} {front : Location} {name : String}
    {copied before : FileSystem} (h : Drops job m m' copied)
    (hjob : job.Holds w (front ++ [name]) before) (hs : Spares (front ++ [name]) m.files)
    (hnone : m.files.node? (front ++ [name]) = none) : Removes (front ++ [name]) copied m'.files := by
  have hnames := hjob.directoryAt.direct.isName
  obtain rfl : copied = m.files := h.uncopied fun p hp => by
    obtain ⟨other, -, ho, rfl⟩ := hjob.tracked p hp
    exact FileSystem.not_isFile_child hnames ho hs.unlinked hnone
  have hremoval := h.removal
  rw [hjob.directory] at hremoval
  rcases hremoval with hok | ⟨-, -, hsame⟩
  · refine absurd hok (FileSystem.removeTree_absent (fun n hm => hnames n (by simp [hm]))
      (hnames name (by simp)) (fun f hf => hs.unlinked f (hf.trans (List.prefix_append _ _))) hnone _)
  · rw [hsame]
    exact ⟨hs.isTree, fun rest => hs.isTree.none_beneath hnone (List.prefix_append _ _), fun _ _ => rfl⟩

/-- Unless something else took the place of the directory, it is gone after the copies. -/
theorem Drops.removes {job : Job} {w : Workspace} {place : Location}
    {copied before earlier : FileSystem} {found : FileSystem.Place} (h : Drops job m m' copied)
    (hjob : job.Holds w place before) (hne : place ≠ [])
    (hreached : earlier.locate job.directory false = .ok found) (hs : Spares place m.files) :
    Removes place copied m'.files := by
  obtain ⟨front, name, rfl⟩ : ∃ front name, place = front ++ [name] :=
    ⟨_, _, (List.dropLast_concat_getLast hne).symm⟩
  rcases hs.stands with hd | hnone
  · exact h.removes_of_directory hjob hreached hs.isTree hd
  · exact h.removes_of_none hjob hs hnone

theorem Drops.leavesNothing {job : Job} {place : Location} {copied : FileSystem}
    (h : Drops job m m' copied) (hremoves : Removes place copied m'.files) :
    LeavesNothing (job.IsCopyPath m.clock) place m.files m'.files :=
  ⟨hremoves.isTree, hremoves.gone,
    fun other ho hl => (hremoves.others other ho).trans (h.copies.kept other hl)⟩

/-- Whatever cleaning up an artifact meets, no file is left under its path. -/
theorem cleanupOutput_ends {w : Workspace} (h : Run.Ends (w.cleanupOutput p) m u m') :
    m.Alike m' ∧ m'.files.isFile p = false := by
  have hremoval : ∀ {m : Machine}, Run.Ends (cleanupOutput ⟨w.directory, none⟩ p) m u m' →
      m.Alike m' ∧ m'.files.isFile p = false := by
    intro m h
    simp only [cleanupOutput, Run.ends_bind, Machine.ends_getFiles] at h
    obtain ⟨_, _, ⟨rfl, rfl⟩, h⟩ := h
    split at h
    · next fs hremove =>
      obtain rfl := Machine.ends_putFiles.1 h
      exact ⟨⟨rfl, rfl, rfl, rfl⟩,
        FileSystem.not_isFile_of_removeFile (FileSystem.removeIfThere_eq_some hremove)⟩
    · next hremove =>
      obtain ⟨-, rfl⟩ := Run.ends_pure.1 h
      exact ⟨.refl _, FileSystem.not_isFile_of_unremoved (by simp [hremove])⟩
    · next fault hremove =>
      obtain rfl := Machine.ends_report.1 h
      exact ⟨⟨rfl, rfl, rfl, rfl⟩, FileSystem.not_isFile_of_unremoved (by simp [hremove])⟩
  rw [cleanupOutput] at h
  cases hd : w.debugDirectory with
  | none =>
    rw [hd] at h
    exact hremoval h
  | some debug =>
    rw [hd] at h
    obtain ⟨_, m₁, hpreserve, h⟩ := Run.ends_bind.1 h
    exact ⟨(preserve_ends hpreserve).1.trans (hremoval h).1, (hremoval h).2⟩

end Workspace

end Galley
