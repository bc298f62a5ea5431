import Galley.Proofs.FileSystem.Removal

/-! # Ways

Walks go through directories and links. Where these stay, paths lead to the same directories, and a file that is
written under a name seen from such a path gets that name, when there is room for it. -/

namespace Galley.FileSystem

variable {fs fs' fs'' : FileSystem} {links : Nat} {directory place : Location} {names : List (List Char)}
  {found : Place} {follow : Bool} {p : Path} {name : String} {content : Text.Bytes}

/-- The directories and links of one file system stand in another. -/
structure KeepsWays (fs fs' : FileSystem) : Prop where
  current : fs'.current = fs.current
  directory : ∀ {place}, fs.node? place = some .directory → fs'.node? place = some .directory
  link : ∀ {place target}, fs.node? place = some (.link target) → fs'.node? place = some (.link target)

theorem KeepsWays.refl (fs : FileSystem) : fs.KeepsWays fs := ⟨rfl, id, id⟩

theorem KeepsWays.trans (h : fs.KeepsWays fs') (h' : fs'.KeepsWays fs'') : fs.KeepsWays fs'' :=
  ⟨h'.current.trans h.current, fun hd => h'.directory (h.directory hd), fun hl => h'.link (h.link hl)⟩

theorem Extends.keepsWays (h : fs.Extends fs') : fs.KeepsWays fs' :=
  ⟨h.current, fun hd => h.node hd, fun hl => h.node hl⟩

/-- What is put somewhere and is no link makes no links. -/
theorem link_of_set {node : Node} {other : Location} {target : String} (hne : place ≠ [])
    (hnode : ∀ target, node ≠ .link target)
    (hl : (fs.set place node).node? other = some (.link target)) : fs.node? other = some (.link target) := by
  rw [node?_set _ _ _ _ hne] at hl
  split at hl
  · exact absurd (Option.some.inj hl) (hnode target)
  · exact hl

/-- A file that is put where none stood, or another, is on no way. -/
theorem keepsWays_set_file (hne : place ≠ [])
    (hp : fs.node? place = none ∨ ∃ old, fs.node? place = some (.file old)) :
    fs.KeepsWays (fs.set place (.file content)) := by
  have hother : ∀ {other node}, fs.node? other = some node → (∀ old, node ≠ .file old) →
      (fs.set place (.file content)).node? other = some node := by
    intro other node hnode hnot
    rw [node?_set _ _ _ _ hne, if_neg, hnode]
    rintro rfl
    rcases hp with hp | ⟨old, hp⟩
    · cases hnode.symm.trans hp
    · exact hnot old (Option.some.inj (hnode.symm.trans hp))
  exact ⟨rfl, fun hd => hother hd (by simp), fun hl => hother hl (by simp)⟩

/-- A walk goes where it went, when the same stands there. -/
theorem walk_of_keepsWays (h : fs.KeepsWays fs')
    (hw : fs.walk true links directory names = .ok (.taken place))
    (hend : fs'.node? place = fs.node? place) :
    fs'.walk true links directory names = .ok (.taken place) := by
  fun_induction walk fs true links directory names with
  | case1 links directory =>
    obtain rfl : directory = place := by simpa using hw
    simp [walk]
  | case2 links directory segment rest hi ih =>
    rw [walk, if_pos hi]
    exact ih hw
  | case3 links directory rest hi ih =>
    rw [walk, if_neg hi, if_pos rfl]
    exact ih hw
  | case4 | case5 | case6 | case9 | case11 => cases hw
  | case7 links directory segment rest hi hp hl name step hnode ih =>
    have hd := h.directory hnode
    simp only [step, name] at hd
    rw [walk, if_neg hi, if_neg hp, if_neg hl]
    simp only [hd]
    exact ih hw
  | case8 links directory segment rest hi hp hl name step content hnode hr =>
    obtain rfl : step = place := by simpa using hw
    have hd := hend.trans hnode
    simp only [step, name] at hd
    rw [walk, if_neg hi, if_neg hp, if_neg hl]
    simp only [hd, hr, if_true]
    rfl
  | case10 links directory segment rest hi hp hl name step target hnode hr => simp at hr
  | case12 directory segment rest hi hp hl name step target hnode hr links ih =>
    have hd := h.link hnode
    simp only [step, name] at hd
    rw [walk, if_neg hi, if_neg hp, if_neg hl]
    simp only [hd, hr]
    exact ih hw

theorem KeepsWays.namesFromRoot (h : fs.KeepsWays fs') (p : Path) :
    fs'.namesFromRoot p = fs.namesFromRoot p := by
  rw [FileSystem.namesFromRoot, FileSystem.namesFromRoot, h.current]

/-- A path leads to the same directory. -/
theorem KeepsWays.leads (h : fs.KeepsWays fs') (hp : fs.Leads p place)
    (hd : fs.node? place = some .directory) : fs'.Leads p place := by
  rw [Leads, h.namesFromRoot]
  exact walk_of_keepsWays h hp ((h.directory hd).trans hd.symm)

/-! ## Files that are read -/

theorem isFile_iff : fs.isFile p = true ↔ ∃ content, fs.read p = .ok content := by
  simp only [read_eq_ok_iff]
  constructor
  · intro h
    rw [isFile] at h
    split at h
    · next content hs => exact ⟨content, hs⟩
    · cases h
  · rintro ⟨content, hs⟩
    rw [isFile, hs]

/-- A file that was put into a directory is read under its path. -/
theorem PutsFile.read_child (h : fs.PutsFile (place ++ [name]) content fs') (hat : fs.IsDirectoryAt place)
    (hn : Path.IsName name) (hs : Text.utf8Size name.toList ≤ nameLimit)
    (hp : IsWalkable (.ofLocation (place ++ [name]))) :
    fs'.read (.ofLocation (place ++ [name])) = .ok content := by
  have hat' : fs'.IsDirectoryAt place := hat.of_directories fun _ hd => h.keeps_directories hd
  have hnode : fs'.node? (place ++ [name]) = some (.file content) := by rw [h.node?, if_pos rfl]
  exact read_eq_ok_iff.2 (status_of_direct (hat'.direct.append hat'.node hn hs) hnode (by simp) hp)

/-- A path leads to another location, or nowhere. -/
def Avoids (fs : FileSystem) (p : Path) (place : Location) : Prop :=
  ∀ found, fs.locate p = .ok found → found.location ≠ place

/-- A file is read as before when another is written. -/
theorem read_set_file (h : fs.Avoids p place) (hne : place ≠ [])
    (hp : fs.node? place = none ∨ ∃ old, fs.node? place = some (.file old)) (read : Text.Bytes) :
    (fs.set place (.file content)).read p = .ok read ↔ fs.read p = .ok read := by
  have hsame : ∀ other, other ≠ place →
      (fs.set place (.file content)).node? other = fs.node? other := fun other ho => by
    rw [node?_set _ _ _ _ hne, if_neg ho]
  simp only [read_eq_ok_iff, status_eq_ok_iff, find_eq_ok_iff]
  constructor
  · rintro ⟨other, hl, hnode⟩
    obtain ⟨before, hb, he⟩ := locate_set_file hne hp hl
    have ho : other ≠ place := fun hsame => h before hb (he.trans hsame)
    rw [hsame other ho] at hnode
    cases before with
    | taken place' =>
      obtain rfl : place' = other := he
      exact ⟨place', hb, hnode⟩
    | vacant directory name slash =>
      cases stands_of_locate hb with
      | vacant _ _ hfree _ _ =>
        obtain rfl : directory ++ [name] = other := he
        rw [hfree] at hnode
        cases hnode
  · rintro ⟨other, hl, hnode⟩
    have hkept := hsame other (h _ hl)
    have hways : fs.KeepsWays (fs.set place (.file content)) := keepsWays_set_file hne hp
    refine ⟨other, ?_, hkept.trans hnode⟩
    rw [locate_eq_walk hl, hways.namesFromRoot]
    exact walk_of_keepsWays hways (walk_of_locate hl) hkept

/-! ## Files that are written -/

theorem locate_of_isWalkable (hp : IsWalkable p) :
    fs.locate p follow = fs.walk follow linkLimit [] (fs.namesFromRoot p) := by
  obtain ⟨hempty, hnul, hlong⟩ := hp
  rw [locate, if_neg (by simp [hempty]), if_neg (by rw [hnul]; simp), if_neg (by omega)]

theorem isWalkable_of_locate (h : fs.locate p follow = .ok found) : IsWalkable p := by
  simp only [locate] at h
  split at h
  · cases h
  · next hempty =>
    split at h
    · cases h
    · next hnul =>
      split at h
      · cases h
      · next hlong => exact ⟨by simpa using hempty, by simpa using hnul, by omega⟩

/-- Where the names before the last lead to a directory, the last is looked for there. -/
theorem walk_concat_of_directory {idle : List (List Char)} (hidle : idle.all (·.isEmpty) = true)
    (h : fs.walk true links directory (names ++ idle) = .ok (.taken place))
    (hd : fs.node? place = some .directory) (segment : List Char) :
    ∃ more, fs.walk true links directory (names ++ [segment]) = fs.walk true more place [segment] := by
  fun_induction walk fs true links directory names with
  | case1 links directory =>
    rw [List.nil_append, walk_idle hidle] at h
    obtain rfl : directory = place := by simpa using h
    exact ⟨links, rfl⟩
  | case2 links directory first rest hi ih =>
    rw [List.cons_append, walk, if_pos hi] at h
    rw [List.cons_append, walk, if_pos hi]
    exact ih h
  | case3 links directory rest hi ih =>
    rw [List.cons_append, walk, if_neg hi, if_pos rfl] at h
    rw [List.cons_append, walk, if_neg hi, if_pos rfl]
    exact ih h
  | case4 links directory first rest hi hp hl =>
    rw [List.cons_append, walk, if_neg hi, if_neg hp, if_pos hl] at h
    cases h
  | case5 links directory first rest hi hp hl name step hnode
  | case6 links directory first rest hi hp hl name step hnode =>
    exact absurd h (walk_of_free hi hp hl hnode place)
  | case8 links directory first rest hi hp hl name step content hnode
  | case9 links directory first rest hi hp hl name step content hnode =>
    rw [List.cons_append, walk, if_neg hi, if_neg hp, if_neg hl] at h
    simp only [step, name] at hnode
    simp only [hnode] at h
    split at h
    · obtain rfl : step = place := by simpa using h
      simp [step, name, hnode] at hd
    · cases h
  | case10 links directory first rest hi hp hl name step target hnode hr => simp at hr
  | case11 directory first rest hi hp hl name step target hnode =>
    rw [List.cons_append, walk, if_neg hi, if_neg hp, if_neg hl] at h
    simp only [step, name] at hnode
    simp [hnode] at h
  | case7 links directory first rest hi hp hl name step hnode ih =>
    rw [List.cons_append, walk, if_neg hi, if_neg hp, if_neg hl] at h
    rw [List.cons_append, walk, if_neg hi, if_neg hp, if_neg hl]
    simp only [step, name] at hnode
    simp only [hnode] at h ⊢
    exact ih h
  | case12 directory first rest hi hp hl name step target hnode hr links ih =>
    rw [List.cons_append, walk, if_neg hi, if_neg hp, if_neg hl] at h
    rw [List.cons_append, walk, if_neg hi, if_neg hp, if_neg hl]
    simp only [step, name] at hnode
    simp only [hnode, Bool.not_true, Bool.and_false, Bool.false_eq_true, if_false,
      ← List.append_assoc] at h ⊢
    exact ih h

/-- A name seen from a path makes a path that is not refused, and is not too long itself. -/
def HasRoom (p : Path) (name : String) : Prop :=
  Text.utf8Size name.toList ≤ nameLimit ∧ IsWalkable (p.join name)

instance (p : Path) (name : String) : Decidable (HasRoom p name) :=
  inferInstanceAs (Decidable (_ ∧ _))

/-- Where a path leads to a directory and has room for a name, a file is written under that name. -/
theorem write_join_of_room (h : fs.Leads p place) (hd : fs.node? place = some .directory)
    (hn : Path.IsName name) (hroom : HasRoom p name)
    (hnode : fs.node? (place ++ [name]) = none ∨ ∃ old, fs.node? (place ++ [name]) = some (.file old))
    (content : Text.Bytes) :
    fs.write (p.join name) content = .ok (fs.set (place ++ [name]) (.file content)) := by
  obtain ⟨hshort, hwalk⟩ := hroom
  obtain ⟨front, idle, hfront, hidle, hlast⟩ := namesFromRoot_join fs p hn
  rw [Leads, hfront] at h
  obtain ⟨more, hmore⟩ := walk_concat_of_directory hidle h hd name.toList
  have hlocate : fs.locate (p.join name) = fs.walk true more place [name.toList] := by
    rw [locate_of_isWalkable hwalk, hlast, hmore]
  rw [walk, if_neg (by simp [hn.notIdle]), if_neg hn.notParent, if_neg (by omega),
    String.ofList_toList] at hlocate
  rcases hnode with hfree | ⟨old, hold⟩
  · simp [write, hlocate, hfree]
  · simp [write, hlocate, hold]

/-- What can be written under a name has room there, unless a link stands under it. -/
theorem hasRoom_of_write (h : fs.Leads p place) (hn : Path.IsName name)
    (hlink : ∀ target, fs.node? (place ++ [name]) ≠ some (.link target))
    (hw : fs.write (p.join name) content = .ok fs') : HasRoom p name := by
  obtain ⟨found, hl, -⟩ := puts_of_write hw
  obtain ⟨other, hother, hend⟩ := leads_of_locate_join hn hl
  obtain rfl : other = place := by simpa using (hother.symm.trans h)
  have hlocation : found.location = other ++ [name] := by
    rcases hend with hend | ⟨target, htarget⟩
    · exact hend
    · exact absurd htarget (hlink target)
  refine ⟨?_, isWalkable_of_locate hl⟩
  cases stands_of_locate hl with
  | taken hdirect _ =>
    rw [Place.location] at hlocation
    exact hdirect.short name (by simp [hlocation])
  | vacant _ _ _ _ hshort =>
    obtain ⟨-, he⟩ := List.append_inj' hlocation rfl
    rwa [← (List.cons.inj he).1]

end Galley.FileSystem
