import Galley.FileSystem.Access
import Galley.Proofs.Path.Location

/-! # Canonical paths

A walk that follows links ends at a location that is reached without them: directories lead to it,
and no link stands there. The path of such a location leads to the same location, so canonical paths
tell what they lead to apart, and a file is read at its own place. -/

namespace Galley.FileSystem

/-- A location that names alone lead to: directories stand on the way, and every name is short
enough to be taken. -/
structure Direct (fs : FileSystem) (place : Location) : Prop where
  isName : ∀ name ∈ place, Path.IsName name
  short : ∀ name ∈ place, Text.utf8Size name.toList ≤ nameLimit
  onTheWay : ∀ front, front <+: place → front ≠ place → fs.node? front = some .directory

theorem Direct.root (fs : FileSystem) : fs.Direct [] :=
  ⟨by simp, by simp, fun front hf hne => absurd (List.prefix_nil.1 hf) hne⟩

theorem node?_root (fs : FileSystem) : fs.node? [] = some .directory := by simp [node?]

theorem Direct.append {fs : FileSystem} {directory : Location} {name : String}
    (h : fs.Direct directory) (hd : fs.node? directory = some .directory) (hn : Path.IsName name)
    (hs : Text.utf8Size name.toList ≤ nameLimit) : fs.Direct (directory ++ [name]) := by
  refine ⟨?_, ?_, ?_⟩
  · intro n hm
    rcases List.mem_append.1 hm with hm | hm
    · exact h.isName n hm
    · rwa [List.mem_singleton.1 hm]
  · intro n hm
    rcases List.mem_append.1 hm with hm | hm
    · exact h.short n hm
    · rwa [List.mem_singleton.1 hm]
  · intro front hf hne
    rcases List.prefix_concat_iff.1 hf with hf | hf
    · exact absurd hf hne
    · by_cases he : front = directory
      · rw [he, hd]
      · exact h.onTheWay front hf he

/-- The directory in which a location lies is reached without links, too. -/
theorem Direct.dropLast {fs : FileSystem} {place : Location} (h : fs.Direct place)
    (hp : fs.node? place = some .directory) :
    fs.Direct place.dropLast ∧ fs.node? place.dropLast = some .directory := by
  have hf : place.dropLast <+: place := List.dropLast_prefix place
  refine ⟨⟨fun n hm => h.isName n (hf.subset hm), fun n hm => h.short n (hf.subset hm), ?_⟩, ?_⟩
  · intro front hfront hne
    apply h.onTheWay front (hfront.trans hf)
    rintro rfl
    exact hne (hfront.eq_of_length (Nat.le_antisymm hfront.length_le hf.length_le))
  · by_cases he : place.dropLast = place
    · rw [he, hp]
    · exact h.onTheWay _ hf he

/-- A walk that follows links ends where names alone lead, and not at a link. -/
theorem direct_of_walk {fs : FileSystem} {links : Nat} {directory place : Location}
    {names : List (List Char)} (h : fs.walk true links directory names = .ok (.taken place))
    (hd : fs.Direct directory) (hn : fs.node? directory = some .directory)
    (hs : ∀ segment ∈ names, '/' ∉ segment) :
    fs.Direct place ∧ ∃ node, fs.node? place = some node ∧ ∀ target, node ≠ .link target := by
  fun_induction walk fs true links directory names with
  | case1 links directory =>
    obtain rfl : directory = place := by simpa using h
    exact ⟨hd, _, hn, by simp⟩
  | case2 links directory segment rest hi ih =>
    exact ih h hd hn fun s hm => hs s (List.mem_cons_of_mem _ hm)
  | case3 links directory rest hi ih =>
    obtain ⟨hd', hn'⟩ := hd.dropLast hn
    exact ih h hd' hn' fun s hm => hs s (List.mem_cons_of_mem _ hm)
  | case4 | case5 | case6 | case9 | case11 => simp at h
  | case7 links directory segment rest hi hp hl name step hnode ih =>
    have hname := Path.isName_ofList (hs segment (by simp)) (by simpa using hi) hp
    have hstep := hd.append hn hname (by simpa [name] using hl)
    exact ih h hstep hnode fun s hm => hs s (List.mem_cons_of_mem _ hm)
  | case8 links directory segment rest hi hp hl name step content hnode hr =>
    obtain rfl : step = place := by simpa using h
    have hname := Path.isName_ofList (hs segment (by simp)) (by simpa using hi) hp
    exact ⟨hd.append hn hname (by simpa [name] using hl), _, hnode, by simp⟩
  | case10 links directory segment rest hi hp hl name step target hnode hr => simp at hr
  | case12 directory segment rest hi hp hl name step target hnode hr links ih =>
    have hsegments : ∀ s ∈ (⟨target⟩ : Path).segments ++ rest, '/' ∉ s := by
      intro s hm
      rcases List.mem_append.1 hm with hm | hm
      · exact Path.not_slash_of_mem_segments hm
      · exact hs s (List.mem_cons_of_mem _ hm)
    by_cases ha : (⟨target⟩ : Path).isAbsolute = true
    · rw [targetStart, if_pos ha] at ih h
      exact ih h (Direct.root fs) (node?_root fs) hsegments
    · rw [targetStart, if_neg ha] at ih h
      exact ih h hd hn hsegments

/-- From the front of a location, the names after it lead to the location. -/
theorem walk_direct {fs : FileSystem} {links : Nat} {directory rest : Location} {node : Node}
    (h : fs.Direct (directory ++ rest)) (hn : fs.node? (directory ++ rest) = some node)
    (hl : ∀ target, node ≠ .link target) :
    fs.walk true links directory (rest.map String.toList) = .ok (.taken (directory ++ rest)) := by
  induction rest generalizing directory with
  | nil => simp [walk]
  | cons name rest ih =>
    have hname := h.isName name (by simp)
    have hshort := h.short name (by simp)
    have hstep : directory ++ name :: rest = (directory ++ [name]) ++ rest := by simp
    rw [hstep] at h hn ⊢
    rw [List.map_cons, walk, if_neg (by simp [hname.notIdle]), if_neg hname.notParent,
      if_neg (by omega), String.ofList_toList]
    by_cases hr : rest = []
    · subst hr
      simp only [List.append_nil] at hn ⊢
      cases node with
      | file content => simp [hn]
      | directory => simp [hn, walk]
      | link target => exact absurd rfl (hl target)
    · have hd : fs.node? (directory ++ [name]) = some .directory :=
        h.onTheWay _ (List.prefix_append _ _) (by simpa using hr)
      simp only [hd]
      exact ih h hn

/-- A path that leads somewhere leads where its names do. -/
theorem walk_of_locate {fs : FileSystem} {p : Path} {follow : Bool} {found : Place}
    (h : fs.locate p follow = .ok found) :
    fs.walk follow linkLimit [] (fs.namesFromRoot p) = .ok found := by
  simp only [locate] at h
  split at h
  · simp at h
  · split at h
    · simp at h
    · split at h
      · simp at h
      · exact h

theorem not_slash_of_mem_namesFromRoot {fs : FileSystem} {p : Path} {segment : List Char}
    (h : segment ∈ fs.namesFromRoot p) : '/' ∉ segment := by
  rw [namesFromRoot] at h
  split at h
  · exact Path.not_slash_of_mem_segments h
  · rcases List.mem_append.1 h with h | h <;> exact Path.not_slash_of_mem_segments h

/-- The names of a location's path lead to the location. -/
theorem walk_ofLocation {fs : FileSystem} {place : Location} {node : Node} (h : fs.Direct place)
    (hn : fs.node? place = some node) (hl : ∀ target, node ≠ .link target) :
    fs.walk true linkLimit [] (fs.namesFromRoot (.ofLocation place)) = .ok (.taken place) := by
  rw [namesFromRoot, if_pos (Path.isAbsolute_ofLocation place)]
  by_cases hne : place = []
  · subst hne
    simp [Path.segments_root, walk, Path.isIdle]
  · rw [Path.segments_ofLocation h.isName hne, walk, if_pos (by rfl)]
    exact walk_direct h hn hl

/-- The path of a location leads nowhere else, when it is no text that is refused. -/
theorem locate_ofLocation {fs : FileSystem} {place : Location} {node : Node} {found : Place}
    (h : fs.Direct place) (hn : fs.node? place = some node) (hl : ∀ target, node ≠ .link target)
    (hf : fs.locate (.ofLocation place) = .ok found) : found = .taken place := by
  have hw := walk_of_locate hf
  rw [walk_ofLocation h hn hl] at hw
  exact (Except.ok.inj hw).symm

theorem find_eq_ok_iff {fs : FileSystem} {p : Path} {follow : Bool} {place : Location} :
    fs.find p follow = .ok place ↔ fs.locate p follow = .ok (.taken place) := by
  cases h : fs.locate p follow with
  | error e => simp [find, h, bind, Except.bind]
  | ok found => cases found <;> simp [find, h, bind, Except.bind]

theorem status_eq_ok_iff {fs : FileSystem} {p : Path} {node : Node} :
    fs.status p = .ok node ↔ ∃ place, fs.find p = .ok place ∧ fs.node? place = some node := by
  cases h : fs.find p with
  | error e => simp [status, h, bind, Except.bind]
  | ok place => cases hn : fs.node? place <;> simp [status, h, hn, bind, Except.bind]

/-- A path that leads somewhere leads where names alone lead to, and not to a link. -/
theorem direct_of_find {fs : FileSystem} {p : Path} {place : Location} (h : fs.find p = .ok place) :
    fs.Direct place ∧ ∃ node, fs.node? place = some node ∧ ∀ target, node ≠ .link target :=
  direct_of_walk (walk_of_locate (find_eq_ok_iff.1 h)) (Direct.root fs) (node?_root fs)
    fun _ hm => not_slash_of_mem_namesFromRoot hm

/-- A canonical path is that of a location where something stands that names alone lead to. -/
theorem direct_of_canonicalize {fs : FileSystem} {p q : Path} (h : fs.canonicalize p = .ok q) :
    ∃ place node, q = .ofLocation place ∧ fs.Direct place ∧ fs.node? place = some node ∧
      ∀ target, node ≠ .link target := by
  cases hf : fs.find p with
  | error e => simp [canonicalize, hf, Except.map] at h
  | ok place =>
    obtain ⟨hd, node, hn, hl⟩ := direct_of_find hf
    refine ⟨place, node, ?_, hd, hn, hl⟩
    simpa [canonicalize, hf, Except.map] using h.symm

/-- What a canonical path leads to stands at its location. -/
theorem node?_of_status {fs : FileSystem} {place : Location} {node found : Node}
    (h : fs.Direct place) (hn : fs.node? place = some node) (hl : ∀ target, node ≠ .link target)
    (hs : fs.status (.ofLocation place) = .ok found) : fs.node? place = some found := by
  obtain ⟨other, hf, ho⟩ := status_eq_ok_iff.1 hs
  have := locate_ofLocation h hn hl (find_eq_ok_iff.1 hf)
  obtain rfl : other = place := by simpa using this
  exact ho

theorem read_eq_ok_iff {fs : FileSystem} {p : Path} {content : Text.Bytes} :
    fs.read p = .ok content ↔ fs.status p = .ok (.file content) := by
  cases h : fs.status p with
  | error e => simp [read, h, bind, Except.bind]
  | ok node => cases node <;> simp [read, h, bind, Except.bind]

/-- A file stands at a canonical path, and is read there. -/
structure IsFileAt (fs : FileSystem) (p : Path) (place : Location) (content : Text.Bytes) :
    Prop where
  path : p = .ofLocation place
  direct : fs.Direct place
  node : fs.node? place = some (.file content)
  read : fs.read p = .ok content

/-- What a canonical path of a file leads to is there. -/
theorem exists_isFileAt {fs : FileSystem} {p q : Path} (h : fs.canonicalize p = .ok q)
    (hf : fs.isFile q = true) : ∃ place content, fs.IsFileAt q place content := by
  obtain ⟨place, node, rfl, hd, hn, hl⟩ := direct_of_canonicalize h
  cases hs : fs.status (.ofLocation place) with
  | error e => simp [isFile, hs] at hf
  | ok found =>
    cases found with
    | file content =>
      exact ⟨place, content, rfl, hd, node?_of_status hd hn hl hs, read_eq_ok_iff.2 hs⟩
    | directory => simp [isFile, hs] at hf
    | link target => simp [isFile, hs] at hf

/-- Two such paths that are the same path are one text. -/
theorem IsFileAt.eq_of_same {fs : FileSystem} {p q : Path} {place other : Location}
    {content content' : Text.Bytes} (hp : fs.IsFileAt p place content)
    (hq : fs.IsFileAt q other content') (h : p.same q = true) : p = q := by
  rw [hp.path, hq.path] at h ⊢
  rw [Path.eq_of_same_ofLocation hp.direct.isName hq.direct.isName h]

/-- There are no more canonical paths of files than files. -/
theorem length_le_fileCount {fs : FileSystem} {paths : List Path} (hn : paths.Nodup)
    (hf : ∀ p ∈ paths, ∃ place content, fs.IsFileAt p place content) :
    paths.length ≤ fs.fileCount := by
  have hs : paths ⊆ fs.fileEntries.map fun e => Path.ofLocation e.1 := by
    intro p hp
    obtain ⟨place, content, h⟩ := hf p hp
    have hnode := h.node
    rw [node?] at hnode
    split at hnode
    · simp at hnode
    · obtain ⟨front, back, he, -⟩ := List.lookup_eq_some_iff.1 hnode
      refine List.mem_map.2 ⟨(place, .file content), ?_, h.path.symm⟩
      exact List.mem_filter.2 ⟨by simp [he], rfl⟩
  calc
    paths.length ≤ (fs.fileEntries.map fun e => Path.ofLocation e.1).length :=
      hn.length_le_of_subset hs
    _ = fs.fileCount := List.length_map _

end Galley.FileSystem
