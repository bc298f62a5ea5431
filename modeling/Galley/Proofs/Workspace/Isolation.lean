import Galley.Proofs.Workspace.Session
import Mathlib.Data.List.Nodup

/-! # The jobs of a workspace are isolated

Whatever is done with the jobs of a workspace, in any order, the directory of each open job holds what was
written into that job. One step preserves this: it changes the files below the directory of one job only, and
the directories of two jobs lie side by side. -/

namespace Galley.Workspace

/-- Each open job has a directory of its own, and holds there what was written into it; everything else is as
it was before the first job was opened. -/
structure Isolated (w : Workspace) (scratch : Location) (before : FileSystem) (s : Session) : Prop where
  isTree : s.machine.files.IsTree
  names : NamesFit s.machine
  holds : ∀ o ∈ s.jobs, o.Holds w (o.place scratch) s.machine.files
  apart : (s.jobs.map (OpenJob.place scratch)).Nodup
  free : ∀ o ∈ s.jobs, before.node? (o.place scratch) = none
  others : ∀ other, (∀ o ∈ s.jobs, ¬o.place scratch <+: other) →
    s.machine.files.node? other = before.node? other

variable {m m' : Machine} {w : Workspace} {scratch other : Location} {before fs' : FileSystem}
  {s s' : Session} {job : Job} {o o' : OpenJob} {pre post jobs : List OpenJob} {x : Write}

/-! ## Directories side by side -/

theorem OpenJob.place_ne_nil (scratch : Location) (o : OpenJob) : o.place scratch ≠ [] := by
  simp [OpenJob.place]

theorem OpenJob.not_place_prefix_scratch (o : OpenJob) {front : Location} (hf : front <+: scratch) :
    ¬o.place scratch <+: front := fun h => by
  have hlength : scratch.length + 1 ≤ scratch.length := by
    simpa [OpenJob.place] using (h.trans hf).length_le
  omega

theorem OpenJob.place_eq_of_prefix (h : o.place scratch <+: other) (h' : o'.place scratch <+: other) :
    o.place scratch = o'.place scratch := by
  have hlength : (o.place scratch).length = (o'.place scratch).length := by simp [OpenJob.place]
  exact (List.prefix_of_prefix_length_le h h' (Nat.le_of_eq hlength)).eq_of_length hlength

/-- What happens in the directory of one job is nothing to another. -/
theorem OpenJob.Holds.of_confined {fs : FileSystem} (h : o.Holds w (o.place scratch) fs)
    (hne : o'.place scratch ≠ o.place scratch) (hc : Confined (o'.place scratch) fs fs') :
    o.Holds w (o.place scratch) fs' :=
  h.of_agree fun other hrelated => hc.others other fun hpre => hne <| by
    rcases hrelated with hon | hbelow
    · exact place_eq_of_prefix (hpre.trans hon) (List.prefix_refl _)
    · exact place_eq_of_prefix hpre hbelow

/-! ## One step -/

namespace Isolated

theorem nil (w : Workspace) (scratch : Location) (ht : m.files.IsTree) (hn : NamesFit m) :
    Isolated w scratch m.files ⟨m, []⟩ where
  isTree := ht
  names := hn
  holds o ho := by cases ho
  apart := .nil
  free o ho := by cases ho
  others _ _ := rfl

/-- The scratch directory stays where it was. -/
theorem canonical (h : Isolated w scratch before s) (hc : IsCanonical before w.directory scratch) :
    IsCanonical s.machine.files w.directory scratch := by
  have hsame : ∀ front, front <+: scratch → s.machine.files.node? front = before.node? front :=
    fun front hf => h.others front fun o _ => o.not_place_prefix_scratch hf
  obtain ⟨node, hnode, hlink⟩ := hc.stands
  exact ⟨hc.path, ⟨hc.direct.isName, hc.direct.short,
    fun front hf hne => (hsame front hf).trans (hc.direct.onTheWay front hf hne)⟩,
    node, (hsame scratch (List.prefix_refl _)).trans hnode, hlink⟩

/-- A step that changes no files. -/
theorem of_files (h : Isolated w scratch before ⟨m, jobs⟩) (ha : m.Alike m')
    (hf : m'.files = m.files) : Isolated w scratch before ⟨m', jobs⟩ where
  isTree := hf ▸ h.isTree
  names n := ha.names ▸ h.names n
  holds o ho := hf ▸ h.holds o ho
  apart := h.apart
  free := h.free
  others other ho := by rw [hf, h.others other ho]

/-- The order of the jobs does not matter. -/
theorem of_perm {jobs' : List OpenJob} (h : Isolated w scratch before ⟨m, jobs⟩) (hp : jobs.Perm jobs') :
    Isolated w scratch before ⟨m, jobs'⟩ where
  isTree := h.isTree
  names := h.names
  holds o ho := h.holds o (hp.mem_iff.2 ho)
  apart := (hp.map _).nodup_iff.1 h.apart
  free o ho := h.free o (hp.mem_iff.2 ho)
  others other ho := h.others other fun o hm => ho o (hp.mem_iff.1 hm)

theorem opened {name : String} (h : Isolated w scratch before ⟨m, jobs⟩) (ha : m.Alike m')
    (hjob : OpensJob w m.files job (scratch ++ [name]) m'.files) :
    Isolated w scratch before ⟨m', ⟨job, []⟩ :: jobs⟩ := by
  have hplace : scratch ++ [name] = OpenJob.place scratch ⟨job, []⟩ := by
    rw [OpenJob.place, hjob.directory, Path.fileName_ofLocation hjob.directoryAt.direct.isName]
  rw [hplace] at hjob
  generalize ho : OpenJob.mk job [] = o at hjob ⊢
  have hnew : ∀ c ∈ jobs, o.place scratch ≠ c.place scratch := fun c hc he => by
    have hnode := (h.holds c hc).directoryAt.node
    rw [← he, hjob.puts.before] at hnode
    cases hnode
  constructor
  case isTree => exact hjob.puts.isTree h.isTree
  case names => exact fun n => ha.names ▸ h.names n
  case holds =>
    refine List.forall_mem_cons.2 ⟨?_, fun c hc => (h.holds c hc).of_confined (hnew c hc) hjob.confined⟩
    subst ho
    exact OpenJob.holds_of_opens hjob h.isTree
  case apart =>
    rw [List.map_cons, List.nodup_cons]
    refine ⟨fun hm => ?_, h.apart⟩
    obtain ⟨c, hc, he⟩ := List.mem_map.1 hm
    exact hnew c hc he.symm
  case free =>
    refine List.forall_mem_cons.2 ⟨?_, h.free⟩
    rw [← h.others _ fun c hc hpre => hnew c hc (OpenJob.place_eq_of_prefix (List.prefix_refl _) hpre)]
    exact hjob.puts.before
  case others =>
    intro other hall
    rw [List.forall_mem_cons] at hall
    exact (hjob.confined.others other hall.1).trans (h.others other hall.2)

/-- No other job has the directory of a job. -/
theorem place_ne (h : Isolated w scratch before ⟨m, o :: jobs⟩) (ho' : o' ∈ jobs) :
    o.place scratch ≠ o'.place scratch := fun he => by
  have hapart := h.apart
  rw [List.map_cons, List.nodup_cons] at hapart
  exact hapart.1 (he ▸ List.mem_map_of_mem ho')

theorem changed (h : Isolated w scratch before ⟨m, o :: jobs⟩) (ha : m.Alike m')
    (hplace : o'.place scratch = o.place scratch) (hc : Confined (o.place scratch) m.files m'.files)
    (ho : o'.Holds w (o.place scratch) m'.files) : Isolated w scratch before ⟨m', o' :: jobs⟩ where
  isTree := hc.isTree h.isTree
  names n := ha.names ▸ h.names n
  holds := List.forall_mem_cons.2 ⟨hplace ▸ ho, fun c hm =>
    (h.holds c (.tail _ hm)).of_confined (h.place_ne hm) hc⟩
  apart := by
    have hapart := h.apart
    rwa [List.map_cons, ← hplace, ← List.map_cons] at hapart
  free := List.forall_mem_cons.2 ⟨hplace ▸ h.free o (.head _), fun c hm => h.free c (.tail _ hm)⟩
  others other hall := by
    rw [List.forall_mem_cons, hplace] at hall
    rw [hc.others other hall.1]
    exact h.others other (List.forall_mem_cons.2 hall)

theorem dropped {u : Unit} (h : Isolated w scratch before ⟨m, o :: jobs⟩) (hbefore : before.IsTree)
    (hd : w.debugDirectory = none) (hdrop : Run.Ends o.job.drop m u m') :
    Isolated w scratch before ⟨m', jobs⟩ := by
  have ho := h.holds o (.head _)
  obtain ⟨ha, hf⟩ := ho.drop_ends (o.place_ne_nil scratch) hd hdrop
  obtain ⟨hgone, hc⟩ := confined_remove m.files (o.place_ne_nil scratch)
  rw [← hf] at hgone hc
  constructor
  case isTree => exact hc.isTree h.isTree
  case names => exact fun n => ha.names ▸ h.names n
  case holds => exact fun c hm => (h.holds c (.tail _ hm)).of_confined (h.place_ne hm) hc
  case apart => exact (List.nodup_cons.1 h.apart).2
  case free => exact fun c hm => h.free c (.tail _ hm)
  case others =>
    intro other hall
    by_cases hpre : o.place scratch <+: other
    · -- Nothing stood there before the job was opened, and nothing stands there now.
      rw [hbefore.none_beneath (h.free o (.head _)) hpre]
      obtain ⟨rest, rfl⟩ := hpre
      exact hgone rest
    · rw [hc.others other hpre]
      exact h.others other (List.forall_mem_cons.2 ⟨hpre, hall⟩)

/-- What a write into an open job does. -/
theorem into_ends {r : Except Failure Job} (h : Isolated w scratch before ⟨m, o :: jobs⟩)
    (hx : x.Fits o.job.directory) (hw : (x.into o.job).Ends m r m') :
    (∀ e, r = .error e → Isolated w scratch before ⟨m', o :: jobs⟩) ∧
      ∀ job, r = .ok job → Isolated w scratch before ⟨m', ⟨job, o.writes ++ [x]⟩ :: jobs⟩ := by
  have ho := h.holds o (.head _)
  have hne := o.place_ne_nil scratch
  have hname := ho.isName hx
  rcases Write.into_ends hw with ⟨e, hwrite, rfl⟩ | ⟨m₁, hwrite, ha', hfiles, rfl⟩
  · rw [ho.path hne hx] at hwrite
    obtain ⟨ha, -, hsame, -⟩ := write_ends ho.directoryAt hname (ho.not_link _) hwrite
    exact ⟨fun _ _ => h.of_files ha (hsame e rfl), by simp⟩
  · rw [ho.path hne hx] at hwrite
    obtain ⟨ha, -, -, hputs⟩ := write_ends ho.directoryAt hname (ho.not_link _) hwrite
    replace hputs := hputs rfl
    rw [← hfiles] at hputs
    refine ⟨by simp, fun job hjob => ?_⟩
    obtain rfl := Except.ok.inj hjob
    refine h.changed (ha.trans ha') (OpenJob.place_after scratch o x) ⟨fun other hother => ?_, hputs.isTree⟩
      (ho.puts hne hx hputs)
    rw [hputs.node?, if_neg]
    rintro rfl
    exact hother (List.prefix_append _ _)

/-- Whatever is done next, the jobs stay isolated. -/
theorem step (h : Isolated w scratch before s) (hbefore : before.IsTree) (hd : w.debugDirectory = none)
    (hc : IsCanonical before w.directory scratch) (hs : Session.Step w s s') :
    Isolated w scratch before s' := by
  cases hs with
  | begun hbegin =>
    obtain ⟨ha, -, -, hopens⟩ := begin_ends (h.canonical hc) h.names hbegin
    obtain ⟨name, hjob⟩ := hopens _ rfl
    exact (h.opened ha hjob).of_perm (List.perm_append_singleton _ _).symm
  | notBegun hbegin =>
    obtain ⟨ha, -, hsame, -⟩ := begin_ends (h.canonical hc) h.names hbegin
    exact h.of_files ha (hsame _ rfl)
  | wrote hx hw =>
    exact (((h.of_perm List.perm_middle).into_ends hx hw).2 _ rfl).of_perm List.perm_middle.symm
  | notWrote hx hw =>
    exact (((h.of_perm List.perm_middle).into_ends hx hw).1 _ rfl).of_perm List.perm_middle.symm
  | dropped hdrop => exact (h.of_perm List.perm_middle).dropped hbefore hd hdrop

/-! ## A run of steps -/

theorem steps (hbefore : m.files.IsTree) (hn : NamesFit m) (hd : w.debugDirectory = none)
    (hc : IsCanonical m.files w.directory scratch) (hs : Session.Steps w ⟨m, []⟩ s) :
    Isolated w scratch m.files s := by
  induction hs with
  | refl => exact .nil w scratch hbefore hn
  | tail _ hstep ih => exact ih.step hbefore hd hc hstep

/-- A file with a name that is not too long can always be written into an open job. -/
theorem exists_write (h : Isolated w scratch before s) (ho : o ∈ s.jobs) (hx : x.Fits o.job.directory)
    (hshort : Text.utf8Size (x.name (o.place scratch)).toList ≤ FileSystem.nameLimit)
    (hwalk : FileSystem.IsWalkable (.ofLocation (o.place scratch ++ [x.name (o.place scratch)]))) :
    ∃ m', (x.into o.job).Ends s.machine (.ok (x.recordedIn o.job)) m' := by
  have hholds := h.holds o ho
  obtain ⟨r, m', hw⟩ := Attempt.exists_ends (x.into o.job) s.machine
  rcases Write.into_ends hw with ⟨e, hwrite, rfl⟩ | ⟨_, _, _, _, rfl⟩
  · rw [hholds.path (o.place_ne_nil scratch) hx] at hwrite
    have hnode : s.machine.files.node? (o.place scratch ++ [x.name (o.place scratch)]) = none ∨
        ∃ old, s.machine.files.node? (o.place scratch ++ [x.name (o.place scratch)]) = some (.file old) := by
      rw [hholds.files]
      cases content? (o.place scratch) o.writes (x.name (o.place scratch)) with
      | none => exact .inl rfl
      | some old => exact .inr ⟨old, rfl⟩
    cases write_of_fits hholds.directoryAt (hholds.isName hx) hshort hwalk hnode hwrite
  · exact ⟨m', hw⟩

end Isolated

/-! ## Two jobs

A session in which two jobs write a dependency of one name. -/

/-- A machine with an empty scratch directory. -/
def emptyScratch : Machine where
  files := ⟨[(["t"], .directory)], [], by decide⟩
  environment := ⟨[]⟩
  programs := fun _ fs => (.exited (some 0) [] [], fs)
  names := fun n => if n = 0 then "a" else "b"
  clock := fun _ => "0"

theorem namesFit_emptyScratch : NamesFit emptyScratch := fun n => by
  simp only [emptyScratch]
  split <;> decide

theorem directoryAt_emptyScratch : emptyScratch.files.IsDirectoryAt ["t"] :=
  ⟨(FileSystem.Direct.root _).append rfl (by decide) (by decide), rfl⟩

def scratchWorkspace : Workspace := ⟨.ofLocation ["t"], none⟩

theorem openAt_emptyScratch :
    (openAt (.ofLocation ["t"]) none).Ends emptyScratch (.ok scratchWorkspace) emptyScratch :=
  openAt_of_directory directoryAt_emptyScratch (by decide) (by simp)

def openJobA : OpenJob := ⟨{ workspace := scratchWorkspace, directory := .ofLocation ["t", "typst_a"] }, []⟩

def openJobB : OpenJob := ⟨{ workspace := scratchWorkspace, directory := .ofLocation ["t", "typst_b"] }, []⟩

/-- Two jobs are opened side by side. -/
theorem exists_steps_two :
    ∃ m, Session.Steps scratchWorkspace ⟨emptyScratch, []⟩ ⟨m, [openJobA, openJobB]⟩ := by
  have hfirst := @begin_of_free emptyScratch scratchWorkspace ["t"] "typst_a" directoryAt_emptyScratch
    rfl (by decide) (by decide) (by decide) (by decide) rfl
  have hat : (emptyScratch.files.set ["t", "typst_a"] .directory).IsDirectoryAt ["t"] :=
    directoryAt_emptyScratch.of_directories fun other hd => by
      rw [FileSystem.node?_set _ _ _ _ (by simp)]
      split
      · rfl
      · exact hd
  have hsecond := @begin_of_free { emptyScratch with
      files := emptyScratch.files.set ["t", "typst_a"] .directory
      drawn := 1
      journal := [.jobOpened "/t/typst_a"] } scratchWorkspace ["t"] "typst_b" hat rfl (by decide)
    (by decide) (by decide) (by decide) rfl
  exact ⟨_, .tail (.single (.begun hfirst)) (.begun hsecond)⟩

/-- Both write a dependency of the same name, and the first job writes it again. -/
theorem exists_steps_sharing : ∃ m, Session.Steps scratchWorkspace ⟨emptyScratch, []⟩
    ⟨m, [(openJobA.after (.dependency "d" [1])).after (.dependency "d" [3]),
      openJobB.after (.dependency "d" [2])]⟩ := by
  have hisolated : ∀ {s}, Session.Steps scratchWorkspace ⟨emptyScratch, []⟩ s →
      Isolated scratchWorkspace ["t"] emptyScratch.files s :=
    Isolated.steps (by decide) namesFit_emptyScratch rfl
      ⟨rfl, directoryAt_emptyScratch.direct, .directory, directoryAt_emptyScratch.node, by simp⟩
  have hname : Path.IsName "d" := by decide
  have hfits : ∀ content, (Write.dependency "d" content).Fits openJobA.job.directory := fun _ =>
    ⟨hname, by decide⟩
  have hfits' : ∀ content, (Write.dependency "d" content).Fits openJobB.job.directory := fun _ =>
    ⟨hname, by decide⟩
  obtain ⟨m, h⟩ := exists_steps_two
  obtain ⟨m₁, hw₁⟩ := (hisolated h).exists_write (.head _) (hfits [1]) (by decide) (by decide)
  have h₁ := h.tail (@Session.Step.wrote _ _ _ [] _ _ _ _ (hfits [1]) hw₁)
  obtain ⟨m₂, hw₂⟩ := (hisolated h₁).exists_write (.tail _ (.head _)) (hfits' [2]) (by decide) (by decide)
  have h₂ := h₁.tail (@Session.Step.wrote _ _ _ [_] _ _ _ _ (hfits' [2]) hw₂)
  obtain ⟨m₃, hw₃⟩ := (hisolated h₂).exists_write (.head _) (hfits [3]) (by decide) (by decide)
  exact ⟨m₃, h₂.tail (@Session.Step.wrote _ _ _ [] _ _ _ _ (hfits [3]) hw₃)⟩

/-! ## Every session -/

/-- The jobs of a workspace that keeps no scratch files are isolated, whatever is done with them in any order.
Each open job has a directory that holds the files that were written into it, each with what was written last,
and nothing else; it tracks its entrypoint first and then its dependencies, each once, in the order of their
first writes. More can be written into it, under names that are not too long. Dropping it removes its
directory and changes nothing else. -/
theorem jobs_isolated {m₀ : Machine} {p : Path} (ht : m₀.files.IsTree) (hn : NamesFit m₀)
    (hopen : (openAt p none).Ends m₀ (.ok w) m) (hs : Session.Steps w ⟨m, []⟩ s) :
    ∃ scratch, w.directory = .ofLocation scratch ∧ Isolated w scratch m.files s ∧ ∀ o ∈ s.jobs,
      o.job.tracked = ((o.trackedNames (o.place scratch)).map fun name =>
        .ofLocation (o.place scratch ++ [name])) ∧
      (o.trackedNames (o.place scratch)).Nodup ∧
      (∀ x : Write, x.Fits o.job.directory →
        Text.utf8Size (x.name (o.place scratch)).toList ≤ FileSystem.nameLimit →
        FileSystem.IsWalkable (.ofLocation (o.place scratch ++ [x.name (o.place scratch)])) →
        ∃ m', (x.into o.job).Ends s.machine (.ok (x.recordedIn o.job)) m') ∧
      ∀ u m', Run.Ends o.job.drop s.machine u m' →
        (∀ rest, m'.files.node? (o.place scratch ++ rest) = none) ∧
          ∀ other, ¬o.place scratch <+: other → m'.files.node? other = s.machine.files.node? other := by
  obtain ⟨ha, htree, hd, scratch, hc⟩ := openAt_none_ends hopen
  have hisolated := Isolated.steps (htree ht) (fun n => ha.names ▸ hn n) hd hc hs
  refine ⟨scratch, hc.path, hisolated, fun o ho => ?_⟩
  have hholds := hisolated.holds o ho
  have hne := o.place_ne_nil scratch
  refine ⟨hholds.tracked, hholds.nodup_trackedNames hne,
    fun x hx hshort hwalk => hisolated.exists_write ho hx hshort hwalk, fun u m' hdrop => ?_⟩
  obtain ⟨-, hf⟩ := hholds.drop_ends hne hd hdrop
  obtain ⟨hgone, hc⟩ := confined_remove s.machine.files hne
  exact hf ▸ ⟨hgone, hc.others⟩

/-- Two jobs write a dependency of one name. Each keeps its own, and when the first is dropped the second
still has it. -/
theorem jobs_isolated_sharing_name :
    ∃ s o o', Session.Steps scratchWorkspace ⟨emptyScratch, []⟩ s ∧ s.jobs = [o, o'] ∧
      s.machine.files.node? ["t", "typst_a", "d"] = some (.file [3]) ∧
      s.machine.files.node? ["t", "typst_b", "d"] = some (.file [2]) ∧
      o.job.tracked = [⟨"/t/typst_a/d"⟩] ∧
      ∀ u m', Run.Ends o.job.drop s.machine u m' →
        m'.files.node? ["t", "typst_a", "d"] = none ∧
          m'.files.node? ["t", "typst_b", "d"] = some (.file [2]) := by
  obtain ⟨m, hs⟩ := exists_steps_sharing
  obtain ⟨scratch, hw, hisolated, hall⟩ := jobs_isolated (by decide) namesFit_emptyScratch
    openAt_emptyScratch hs
  obtain ⟨ho, ho'⟩ := List.forall_mem_cons.1 hisolated.holds
  replace ho' := ho' _ (.head _)
  obtain rfl : scratch = ["t"] := by
    refine Path.eq_of_same_ofLocation (fun n hn => ho.directoryAt.direct.isName n ?_)
      (fun n hn => List.mem_singleton.1 hn ▸ (by decide)) ?_
    · exact List.mem_append_left _ hn
    · rw [← hw]
      decide
  obtain ⟨htracked, -, -, hdrop⟩ := hall _ (.head _)
  refine ⟨_, _, _, hs, rfl, ho.files "d", ho'.files "d", htracked, fun u m' h => ?_⟩
  obtain ⟨hgone, hothers⟩ := hdrop u m' h
  exact ⟨hgone ["d"], (hothers ["t", "typst_b", "d"] (by decide)).trans (ho'.files "d")⟩

end Galley.Workspace
