import Galley.Proofs.FileSystem.Canonical
import Galley.Proofs.FileSystem.Tree

/-! # Where walks end

A walk ends at a location that names alone lead to, or at a name that is free in such a directory.
When files and directories are put where nothing stood, walks end at the same locations. -/

namespace Galley.FileSystem

/-- The location where a walk ends, taken or not. -/
def Place.location : Place → Location
  | .taken place => place
  | .vacant directory name _ => directory ++ [name]

/-- What is known of where a walk ends. -/
inductive Stands (fs : FileSystem) : Place → Prop where
  | taken {place : Location} : fs.Direct place → fs.node? place ≠ none → Stands fs (.taken place)
  | vacant {directory : Location} {name : String} {slash : Bool} : fs.Direct directory →
      fs.node? directory = some .directory → fs.node? (directory ++ [name]) = none →
      Path.IsName name → Text.utf8Size name.toList ≤ nameLimit →
      Stands fs (.vacant directory name slash)

variable {fs fs' : FileSystem} {follow : Bool} {links : Nat} {directory place : Location}
  {names : List (List Char)} {found : Place} {p : Path}

theorem stands_of_walk (h : fs.walk follow links directory names = .ok found)
    (hd : fs.Direct directory) (hn : fs.node? directory = some .directory)
    (hs : ∀ segment ∈ names, '/' ∉ segment) : fs.Stands found := by
  fun_induction walk fs follow links directory names with
  | case1 links directory =>
    obtain rfl : .taken directory = found := by simpa using h
    exact .taken hd (by simp [hn])
  | case2 links directory segment rest hi ih =>
    exact ih h hd hn fun s hm => hs s (List.mem_cons_of_mem _ hm)
  | case3 links directory rest hi ih =>
    obtain ⟨hd', hn'⟩ := hd.dropLast hn
    exact ih h hd' hn' fun s hm => hs s (List.mem_cons_of_mem _ hm)
  | case4 | case6 | case9 | case11 => cases h
  | case5 links directory segment rest hi hp hl name step hnode hr =>
    obtain rfl : .vacant directory name (!rest.isEmpty) = found := by simpa using h
    have hname := Path.isName_ofList (hs segment (by simp)) (by simpa using hi) hp
    exact .vacant hd hn hnode hname (by simpa [name] using hl)
  | case7 links directory segment rest hi hp hl name step hnode ih =>
    have hname := Path.isName_ofList (hs segment (by simp)) (by simpa using hi) hp
    have hstep := hd.append hn hname (by simpa [name] using hl)
    exact ih h hstep hnode fun s hm => hs s (List.mem_cons_of_mem _ hm)
  | case8 links directory segment rest hi hp hl name step content hnode hr =>
    obtain rfl : .taken step = found := by simpa using h
    have hname := Path.isName_ofList (hs segment (by simp)) (by simpa using hi) hp
    exact .taken (hd.append hn hname (by simpa [name] using hl)) (by simp [hnode])
  | case10 links directory segment rest hi hp hl name step target hnode hr =>
    obtain rfl : .taken step = found := by simpa using h
    have hname := Path.isName_ofList (hs segment (by simp)) (by simpa using hi) hp
    exact .taken (hd.append hn hname (by simpa [name] using hl)) (by simp [hnode])
  | case12 directory segment rest hi hp hl name step target hnode hr links ih =>
    have hsegments : ∀ s ∈ (⟨target⟩ : Path).segments ++ rest, '/' ∉ s := by
      intro s hm
      rcases List.mem_append.1 hm with hm | hm
      · exact Path.not_slash_of_mem_segments hm
      · exact hs s (List.mem_cons_of_mem _ hm)
    by_cases ha : (⟨target⟩ : Path).isAbsolute = true
    · rw [targetStart, if_pos ha] at ih h
      exact ih h (Direct.root fs) (node?_root fs) hsegments
    · rw [targetStart, if_neg ha] at ih h
      exact ih h hd hn hsegments

theorem stands_of_locate (h : fs.locate p follow = .ok found) : fs.Stands found :=
  stands_of_walk (walk_of_locate h) (Direct.root fs) (node?_root fs)
    fun _ hm => not_slash_of_mem_namesFromRoot hm

/-! ## Walks in other file systems -/

/-- All that stands in one file system stands in another. -/
structure Extends (fs fs' : FileSystem) : Prop where
  current : fs'.current = fs.current
  node : ∀ {place node}, fs.node? place = some node → fs'.node? place = some node

theorem Extends.refl (fs : FileSystem) : fs.Extends fs := ⟨rfl, id⟩

theorem Extends.trans {fs'' : FileSystem} (h : fs.Extends fs') (h' : fs'.Extends fs'') :
    fs.Extends fs'' :=
  ⟨h'.current.trans h.current, fun hn => h'.node (h.node hn)⟩

theorem extends_set {node : Node} (hp : fs.node? place = none) : fs.Extends (fs.set place node) := by
  refine ⟨rfl, fun {other found} hn => ?_⟩
  have hne : place ≠ [] := fun he => node?_root_ne_none fs (he ▸ hp)
  rw [node?_set _ _ _ _ hne, if_neg (fun he => by simp [he, hp] at hn), hn]

theorem walk_idle {rest : List (List Char)} (h : rest.all (·.isEmpty) = true) :
    fs.walk follow links directory rest = .ok (.taken directory) := by
  induction rest with
  | nil => simp [walk]
  | cons segment rest ih =>
    simp only [List.all_cons, Bool.and_eq_true] at h
    rw [walk, if_pos (by simp [Path.isIdle, h.1]), ih h.2]

/-- A walk that ended at something ends there after more was put into the file system; one that
ended at a free name ends there when it is given to a directory. -/
theorem walk_of_extends (h : fs.Extends fs') (hw : fs.walk follow links directory names = .ok found)
    (hf : (∃ place, found = .taken place) ∨ fs'.node? found.location = some .directory) :
    fs'.walk follow links directory names = .ok (.taken found.location) := by
  fun_induction walk fs follow links directory names with
  | case1 links directory =>
    obtain rfl : .taken directory = found := by simpa using hw
    simp [walk, Place.location]
  | case2 links directory segment rest hi ih =>
    rw [walk, if_pos hi]
    exact ih hw
  | case3 links directory rest hi ih =>
    rw [walk, if_neg hi, if_pos rfl]
    exact ih hw
  | case4 | case6 | case9 | case11 => cases hw
  | case5 links directory segment rest hi hp hl name step hnode hr =>
    obtain rfl : .vacant directory name (!rest.isEmpty) = found := by simpa using hw
    have hd : fs'.node? (directory ++ [name]) = some .directory := by simpa [Place.location] using hf
    rw [walk, if_neg hi, if_neg hp, if_neg hl]
    simp only [name] at hd
    simp only [hd]
    exact walk_idle hr
  | case7 links directory segment rest hi hp hl name step hnode ih =>
    have hd := h.node hnode
    simp only [step, name] at hd
    rw [walk, if_neg hi, if_neg hp, if_neg hl]
    simp only [hd]
    exact ih hw
  | case8 links directory segment rest hi hp hl name step content hnode hr =>
    obtain rfl : .taken step = found := by simpa using hw
    have hd := h.node hnode
    simp only [step, name] at hd
    rw [walk, if_neg hi, if_neg hp, if_neg hl]
    simp only [hd, hr, if_true]
    rfl
  | case10 links directory segment rest hi hp hl name step target hnode hr =>
    obtain rfl : .taken step = found := by simpa using hw
    have hd := h.node hnode
    simp only [step, name] at hd
    rw [walk, if_neg hi, if_neg hp, if_neg hl]
    simp only [hd, hr, if_true]
    rfl
  | case12 directory segment rest hi hp hl name step target hnode hr links ih =>
    have hd := h.node hnode
    simp only [step, name] at hd
    rw [walk, if_neg hi, if_neg hp, if_neg hl]
    simp only [hd, hr]
    exact ih hw

/-- A path that leads somewhere in one file system is refused in none. -/
theorem locate_eq_walk (h : fs.locate p follow = .ok found) (other : FileSystem) (follow' : Bool) :
    other.locate p follow' = other.walk follow' linkLimit [] (other.namesFromRoot p) := by
  simp only [locate] at h
  split at h
  · cases h
  · next hempty =>
    split at h
    · cases h
    · next hnul =>
      split at h
      · cases h
      · next hlong => rw [locate, if_neg hempty, if_neg hnul, if_neg hlong]

theorem locate_of_extends (h : fs.Extends fs') (hl : fs.locate p follow = .ok found)
    (hf : (∃ place, found = .taken place) ∨ fs'.node? found.location = some .directory) :
    fs'.locate p follow = .ok (.taken found.location) := by
  have hnames : fs'.namesFromRoot p = fs.namesFromRoot p := by
    rw [namesFromRoot, namesFromRoot, h.current]
  rw [locate_eq_walk hl, hnames]
  exact walk_of_extends h (walk_of_locate hl) hf

theorem canonicalize_of_extends {q : Path} (h : fs.Extends fs') (hc : fs.canonicalize p = .ok q) :
    fs'.canonicalize p = .ok q := by
  cases hf : fs.find p with
  | error e => simp [canonicalize, hf, Except.map] at hc
  | ok place =>
    have hl := locate_of_extends h (find_eq_ok_iff.1 hf) (.inl ⟨place, rfl⟩)
    rw [canonicalize, find_eq_ok_iff.2 hl]
    simpa [canonicalize, hf, Except.map, Place.location] using hc

/-- A file put where none stood, or another did, does not change where walks end. -/
theorem walk_set_file {content : Text.Bytes} (hne : place ≠ [])
    (hp : fs.node? place = none ∨ ∃ old, fs.node? place = some (.file old))
    (h : (fs.set place (.file content)).walk follow links directory names = .ok found) :
    ∃ before, fs.walk follow links directory names = .ok before ∧
      before.location = found.location := by
  have hset : ∀ other node, other ≠ place → (fs.set place (.file content)).node? other = node →
      fs.node? other = node := by
    intro other node ho hnode
    rwa [node?_set _ _ _ _ hne, if_neg ho] at hnode
  have hplace : (fs.set place (.file content)).node? place = some (.file content) := by
    rw [node?_set _ _ _ _ hne, if_pos rfl]
  generalize hfs : fs.set place (.file content) = after at *
  fun_induction walk after follow links directory names with
  | case1 links directory => exact ⟨found, by simpa [walk] using h, rfl⟩
  | case2 links directory segment rest hi ih =>
    rw [walk, if_pos hi]
    exact ih h
  | case3 links directory rest hi ih =>
    rw [walk, if_neg hi, if_pos rfl]
    exact ih h
  | case4 | case6 | case9 | case11 => cases h
  | case5 links directory segment rest hi hp hl name step hnode hr =>
    have ho : step ≠ place := fun he => by simp [he, hplace] at hnode
    have hd := hset _ _ ho hnode
    simp only [step, name] at hd
    refine ⟨found, ?_, rfl⟩
    rw [walk, if_neg hi, if_neg hp, if_neg hl]
    simpa only [hd, hr, if_true] using h
  | case7 links directory segment rest hi hp hl name step hnode ih =>
    have ho : step ≠ place := fun he => by simp [he, hplace] at hnode
    have hd := hset _ _ ho hnode
    simp only [step, name] at hd
    rw [walk, if_neg hi, if_neg hp, if_neg hl]
    simp only [hd]
    exact ih h
  | case8 links directory segment rest hi hp' hl name step old hnode hr =>
    obtain rfl : .taken step = found := by simpa using h
    rw [walk, if_neg hi, if_neg hp', if_neg hl]
    by_cases ho : step = place
    · rw [← ho] at hp
      simp only [step, name] at hp
      rcases hp with hd | ⟨old', hd⟩
      · simp only [hd, List.isEmpty_iff.1 hr]
        exact ⟨_, rfl, rfl⟩
      · simp only [hd, hr, if_true]
        exact ⟨_, rfl, rfl⟩
    · have hd := hset _ _ ho hnode
      simp only [step, name] at hd
      simp only [hd, hr, if_true]
      exact ⟨_, rfl, rfl⟩
  | case10 links directory segment rest hi hp hl name step target hnode hr =>
    obtain rfl : .taken step = found := by simpa using h
    have ho : step ≠ place := fun he => by simp [he, hplace] at hnode
    have hd := hset _ _ ho hnode
    simp only [step, name] at hd
    rw [walk, if_neg hi, if_neg hp, if_neg hl]
    simp only [hd, hr, if_true]
    exact ⟨_, rfl, rfl⟩
  | case12 directory segment rest hi hp hl name step target hnode hr links ih =>
    have ho : step ≠ place := fun he => by simp [he, hplace] at hnode
    have hd := hset _ _ ho hnode
    simp only [step, name] at hd
    rw [walk, if_neg hi, if_neg hp, if_neg hl]
    simp only [hd, hr]
    exact ih h

theorem locate_set_file {content : Text.Bytes} (hne : place ≠ [])
    (hp : fs.node? place = none ∨ ∃ old, fs.node? place = some (.file old))
    (h : (fs.set place (.file content)).locate p follow = .ok found) :
    ∃ before, fs.locate p follow = .ok before ∧ before.location = found.location := by
  obtain ⟨before, hw, hb⟩ := walk_set_file hne hp (walk_of_locate h)
  refine ⟨before, ?_, hb⟩
  rw [locate_eq_walk h]
  exact hw

/-! ## Locations below a directory -/

/-- From a directory through directories. -/
theorem walk_through {rest : Location} (hd : fs.Direct (directory ++ rest))
    (hn : fs.node? (directory ++ rest) = some .directory) (more : List (List Char)) :
    fs.walk follow links directory (rest.map String.toList ++ more) =
      fs.walk follow links (directory ++ rest) more := by
  induction rest generalizing directory with
  | nil => simp
  | cons name rest ih =>
    have hname := hd.isName name (by simp)
    have hshort := hd.short name (by simp)
    have hstep : directory ++ name :: rest = (directory ++ [name]) ++ rest := by simp
    have hnode : fs.node? (directory ++ [name]) = some .directory := by
      by_cases hr : rest = []
      · simpa [hr] using hn
      · exact hd.onTheWay _ (by simp) (by simpa using hr)
    rw [hstep] at hd hn ⊢
    rw [List.map_cons, List.cons_append, walk, if_neg (by simp [hname.notIdle]),
      if_neg hname.notParent, if_neg (by omega), String.ofList_toList]
    simp only [hnode]
    exact ih hd hn

theorem locate_below {rest : List (List Char)} (hd : fs.Direct place)
    (hn : fs.node? place = some .directory) (habsolute : p.isAbsolute = true)
    (hsegments : p.segments = [] :: (place.map String.toList ++ rest))
    (h : fs.locate p follow = .ok found) : fs.walk follow linkLimit place rest = .ok found := by
  have hw := walk_of_locate h
  rw [namesFromRoot, if_pos habsolute, hsegments, walk, if_pos (by rfl)] at hw
  rwa [walk_through (by simpa using hd) (by simpa using hn)] at hw

end Galley.FileSystem
