import Galley.Proofs.FileSystem.Denotation
import Galley.Proofs.FileSystem.Ways
import Mathlib.Data.List.TakeWhile

/-! # What a path lies in

The text of a path goes on from that of its parent, so a walk to the path comes through the directory that the
parent leads to. A path that leads somewhere, and one where a directory can be made, lies in a directory. -/

namespace Galley

namespace Text

theorem intercalate_splitOnChar (c : Char) (text : List Char) :
    [c].intercalate (splitOnChar (· == c) text) = text := by
  induction text with
  | nil => simp [splitOnChar]
  | cons d text ih =>
    obtain ⟨piece, pieces, hs⟩ := List.exists_cons_of_ne_nil (splitOnChar_ne_nil (· == c) text)
    rw [hs] at ih
    by_cases hd : d = c
    · subst hd
      simp [splitOnChar, hs, ih]
    · cases pieces with
      | nil => simpa [splitOnChar, hd, hs] using ih
      | cons next pieces => simpa [splitOnChar, hd, hs] using ih

/-- A character that the text is not cut at is in a piece. -/
theorem exists_mem_splitOnChar {p : Char → Bool} {c : Char} {text : List Char} (hc : c ∈ text)
    (hp : p c = false) : ∃ piece ∈ splitOnChar p text, c ∈ piece := by
  obtain ⟨front, rest, rfl⟩ := List.append_of_mem hc
  clear hc
  induction front with
  | nil =>
    obtain ⟨piece, pieces, hs⟩ := List.exists_cons_of_ne_nil (splitOnChar_ne_nil p rest)
    exact ⟨c :: piece, by simp [splitOnChar, hp, hs], by simp⟩
  | cons d front ih =>
    obtain ⟨piece, hm, hmem⟩ := ih
    rw [List.cons_append, splitOnChar]
    split
    · exact ⟨piece, List.mem_cons_of_mem _ hm, hmem⟩
    · obtain ⟨first, pieces, hs⟩ := List.exists_cons_of_ne_nil (splitOnChar_ne_nil p (front ++ c :: rest))
      rw [hs] at hm ⊢
      rcases List.mem_cons.1 hm with rfl | hm
      · exact ⟨d :: piece, by simp, by simp [hmem]⟩
      · exact ⟨piece, by simp [hm], hmem⟩

theorem isEmpty_of_splitOnChar {p : Char → Bool} {text : List Char} (h : ∀ c ∈ text, p c = true) :
    (splitOnChar p text).all (·.isEmpty) = true := by
  induction text with
  | nil => rfl
  | cons c text ih =>
    rw [splitOnChar, if_pos (h c (by simp)), List.all_cons, ih fun d hd => h d (List.mem_cons_of_mem _ hd)]
    rfl

end Text

namespace Path

variable {p parent : Path}

/-- The text of a path is that of its parent, a slash, and something that is not only slashes. Of the root, the
slash is kept. -/
structure Below (p parent : Path) (front more : List Char) : Prop where
  text : p.text.toList = front ++ '/' :: more
  named : ∃ c ∈ more, c ≠ '/'
  parent : parent.text.toList = if front = [] then ['/'] else front

theorem exists_below (h : p.parent? = some parent) : parent = ⟨""⟩ ∨ ∃ front more, Below p parent front more := by
  rcases exists_segments_of_parent? h with he | ⟨front, more, hfront, hs, ⟨segment, hm, hi⟩, rfl⟩
  · exact .inl he
  obtain ⟨first, inner, rfl⟩ := List.exists_cons_of_ne_nil hfront
  obtain ⟨next, rest, rfl⟩ := List.exists_cons_of_ne_nil (List.ne_nil_of_mem hm)
  refine .inr ⟨['/'].intercalate (first :: inner), ['/'].intercalate (next :: rest), ?_, ?_, ?_⟩
  · rw [← Text.intercalate_splitOnChar '/' p.text.toList, ← segments, hs, List.cons_append]
    simp only [intercalate_slash, List.flatMap_append, List.flatMap_cons, List.cons_append, List.append_assoc]
  · have hne : segment ≠ [] := fun he => by simp [he, isIdle] at hi
    obtain ⟨c, tail, rfl⟩ := List.exists_cons_of_ne_nil hne
    refine ⟨c, ?_, ?_⟩
    · rw [intercalate_slash]
      rcases List.mem_cons.1 hm with rfl | hm
      · simp
      · exact List.mem_append_right _ (List.mem_flatMap.2 ⟨_, hm, by simp⟩)
    · rintro rfl
      have hsegment : '/' :: tail ∈ p.segments := hs ▸ List.mem_append_right _ hm
      exact not_slash_of_mem_segments hsegment (by simp)
  · have hnil : ['/'].intercalate (first :: inner) = [] ↔ first :: inner = [[]] := by
      rw [intercalate_slash, List.append_eq_nil_iff]
      cases inner <;> simp
    simp only [hnil]
    split <;> simp

namespace Below

variable {front more : List Char}

theorem segments (h : Below p parent front more) :
    p.segments = Text.splitOnChar (· == '/') front ++ Text.splitOnChar (· == '/') more := by
  rw [Path.segments, h.text, Text.splitOnChar_append_cons (by simp)]

theorem segments_parent (h : Below p parent front more) : ∃ idle, idle.all (·.isEmpty) = true ∧
    parent.segments = Text.splitOnChar (· == '/') front ++ idle := by
  rw [Path.segments, h.parent]
  by_cases hf : front = []
  · exact ⟨[[]], rfl, by simp [hf, Text.splitOnChar]⟩
  · exact ⟨[], rfl, by simp [hf]⟩

theorem exists_segment (h : Below p parent front more) :
    ∃ segment ∈ Text.splitOnChar (· == '/') more, segment ≠ [] := by
  obtain ⟨c, hc, hslash⟩ := h.named
  obtain ⟨segment, hm, hmem⟩ := Text.exists_mem_splitOnChar (p := (· == '/')) hc (by simpa using hslash)
  exact ⟨segment, hm, List.ne_nil_of_mem hmem⟩

theorem isPrefix (h : Below p parent front more) : parent.text.toList <+: p.text.toList := by
  rw [h.text, h.parent]
  split
  · next hf => exact ⟨more, by simp [hf]⟩
  · exact ⟨'/' :: more, rfl⟩

theorem parent_ne_nil (h : Below p parent front more) : parent.text.toList ≠ [] := by
  rw [h.parent]
  split
  · simp
  · assumption

theorem isAbsolute (h : Below p parent front more) : parent.isAbsolute = p.isAbsolute := by
  rw [Path.isAbsolute, Path.isAbsolute, h.text, h.parent]
  cases front <;> simp

/-- Slashes at the end of a path do not belong to what it is below. -/
theorem dropBack (h : Below p parent front more) :
    Below ⟨String.ofList (Text.dropBack (· == '/') p.text.toList)⟩ parent front
      (Text.dropBack (· == '/') more) := by
  obtain ⟨c, hc, hslash⟩ := h.named
  have hcut : (more.reverse.dropWhile (· == '/')).isEmpty = false := by
    rw [Bool.eq_false_iff, Ne, List.isEmpty_iff, List.dropWhile_eq_nil_iff]
    intro hall
    exact hslash (by simpa using hall c (List.mem_reverse.2 hc))
  refine ⟨?_, ?_, h.parent⟩
  · rw [String.toList_ofList, h.text, Text.dropBack, Text.dropBack, List.reverse_append, List.reverse_cons,
      List.append_assoc, List.dropWhile_append, hcut]
    simp
  · have hlast := List.head?_dropWhile_not (· == '/') more.reverse
    cases hd : more.reverse.dropWhile (· == '/') with
    | nil => simp [hd] at hcut
    | cons d rest =>
      rw [hd] at hlast
      exact ⟨d, by simp [Text.dropBack, hd], by simpa using hlast⟩

end Below

/-- The path without slashes at its end, unless there is nothing else. -/
def unslashed (p : Path) : Path :=
  let text := Text.dropBack (· == '/') p.text.toList
  if text.isEmpty then p else ⟨String.ofList text⟩

theorem exists_unslashed (p : Path) : ∃ slashes, (∀ c ∈ slashes, c = '/') ∧
    p.text.toList = p.unslashed.text.toList ++ slashes ∧
    p.unslashed.text.toList.head? = p.text.toList.head? := by
  have hsplit : p.text.toList = Text.dropBack (· == '/') p.text.toList ++
      (p.text.toList.reverse.takeWhile (· == '/')).reverse := by
    rw [Text.dropBack, ← List.reverse_append, List.takeWhile_append_dropWhile, List.reverse_reverse]
  rw [unslashed]
  split
  · exact ⟨[], by simp, by simp, rfl⟩
  · next hne =>
    refine ⟨(p.text.toList.reverse.takeWhile (· == '/')).reverse, ?_, ?_, ?_⟩
    · intro c hc
      rw [List.mem_reverse] at hc
      simpa using List.mem_takeWhile_imp hc
    · rw [String.toList_ofList, ← hsplit]
    · rw [String.toList_ofList]
      generalize hfront : Text.dropBack (· == '/') p.text.toList = front at hne hsplit ⊢
      cases front with
      | nil => simp at hne
      | cons c front => rw [hsplit, List.cons_append, List.head?_cons, List.head?_cons]

end Path

namespace FileSystem

variable {fs fs' : FileSystem} {follow : Bool} {links : Nat} {directory place : Location}
  {names front more idle : List (List Char)} {found : Place} {p parent : Path}

/-! ## Walks to a path and to its parent -/

/-- A walk that goes on to a name comes through a directory. -/
theorem directory_of_walk (hidle : idle.all (·.isEmpty) = true) (hm : ∃ segment ∈ more, segment ≠ [])
    (hd : fs.IsDirectoryAt directory) (hs : ∀ segment ∈ front, '/' ∉ segment)
    (h : fs.walk follow links directory (front ++ more) = .ok found) :
    ∃ place, fs.walk true links directory (front ++ idle) = .ok (.taken place) ∧
      fs.node? place = some .directory := by
  have hall : ∀ rest : List (List Char), (rest ++ more).all (·.isEmpty) = false := by
    intro rest
    obtain ⟨segment, hmem, hne⟩ := hm
    rw [List.all_append, Bool.and_eq_false_iff, List.all_eq_false]
    exact .inr (List.all_eq_false.2 ⟨segment, hmem, by simpa using hne⟩)
  have hempty : ∀ rest : List (List Char), (rest ++ more).isEmpty = false := by
    intro rest
    obtain ⟨segment, hmem, -⟩ := hm
    rw [Bool.eq_false_iff, Ne, List.isEmpty_iff]
    exact List.append_ne_nil_of_right_ne_nil _ (List.ne_nil_of_mem hmem)
  fun_induction walk fs true links directory front with
  | case1 links directory => exact ⟨directory, walk_idle hidle, hd.node⟩
  | case2 links directory segment rest hi ih =>
    rw [List.cons_append, walk, if_pos hi] at h
    rw [List.cons_append, walk, if_pos hi]
    exact ih hd (fun s hmem => hs s (List.mem_cons_of_mem _ hmem)) h
  | case3 links directory rest hi ih =>
    rw [List.cons_append, walk, if_neg hi, if_pos rfl] at h
    rw [List.cons_append, walk, if_neg hi, if_pos rfl]
    obtain ⟨hd', hn'⟩ := hd.direct.dropLast hd.node
    exact ih ⟨hd', hn'⟩ (fun s hmem => hs s (List.mem_cons_of_mem _ hmem)) h
  | case4 links directory segment rest hi hp hl =>
    rw [List.cons_append, walk, if_neg hi, if_neg hp, if_pos hl] at h
    cases h
  | case5 links directory segment rest hi hp hl name step hnode
  | case6 links directory segment rest hi hp hl name step hnode =>
    rw [List.cons_append, walk, if_neg hi, if_neg hp, if_neg hl] at h
    simp only [step, name] at hnode
    simp [hnode, hall] at h
  | case7 links directory segment rest hi hp hl name step hnode ih =>
    have hname := Path.isName_ofList (hs segment (by simp)) (by simpa using hi) hp
    have hstep : fs.IsDirectoryAt step := ⟨hd.direct.append hd.node hname (by simpa [name] using hl), hnode⟩
    rw [List.cons_append, walk, if_neg hi, if_neg hp, if_neg hl] at h
    rw [List.cons_append, walk, if_neg hi, if_neg hp, if_neg hl]
    simp only [step, name] at hnode
    simp only [hnode] at h ⊢
    exact ih hstep (fun s hmem => hs s (List.mem_cons_of_mem _ hmem)) h
  | case8 links directory segment rest hi hp hl name step content hnode
  | case9 links directory segment rest hi hp hl name step content hnode
  | case11 directory segment rest hi hp hl name step target hnode =>
    rw [List.cons_append, walk, if_neg hi, if_neg hp, if_neg hl] at h
    simp only [step, name] at hnode
    simp [hnode, hempty] at h
  | case10 links directory segment rest hi hp hl name step target hnode hr => simp at hr
  | case12 directory segment rest hi hp hl name step target hnode hr links ih =>
    rw [List.cons_append, walk, if_neg hi, if_neg hp, if_neg hl] at h
    rw [List.cons_append, walk, if_neg hi, if_neg hp, if_neg hl]
    simp only [step, name] at hnode
    simp only [hnode, Bool.not_true, Bool.and_false, Bool.false_eq_true, if_false, hempty, Bool.false_and,
      ← List.append_assoc] at h ⊢
    have hsegments : ∀ s ∈ (⟨target⟩ : Path).segments ++ rest, '/' ∉ s := by
      intro s hmem
      rcases List.mem_append.1 hmem with hmem | hmem
      · exact Path.not_slash_of_mem_segments hmem
      · exact hs s (List.mem_cons_of_mem _ hmem)
    refine ih ?_ hsegments h
    rw [targetStart]
    split
    · exact ⟨Direct.root fs, node?_root fs⟩
    · exact hd

theorem isDirectory_iff : fs.isDirectory p = true ↔ fs.status p = .ok .directory := by
  rw [isDirectory]
  split <;> simp_all

theorem IsWalkable.of_start {q : Path} (h : IsWalkable p) (hq : q.text.toList <+: p.text.toList)
    (hne : q.text.toList ≠ []) : IsWalkable q := by
  obtain ⟨rest, hr⟩ := hq
  refine ⟨?_, ?_, ?_⟩
  · rw [Path.isEmpty, Bool.eq_false_iff, Ne, String.isEmpty_iff, ← String.toList_eq_nil_iff]
    exact hne
  · have hnul := h.2.1
    rw [← hr, List.contains_eq_mem, decide_eq_false_iff_not, List.mem_append, not_or] at hnul
    rw [List.contains_eq_mem, decide_eq_false_iff_not]
    exact hnul.1
  · have hlong := h.2.2
    rw [← Text.utf8Size_toList, ← hr, Text.utf8Size_append] at hlong
    rw [← Text.utf8Size_toList]
    omega

/-- A path that leads somewhere lies in a directory. -/
theorem isDirectory_of_below {front more : List Char} (h : Path.Below p parent front more)
    (hl : fs.locate p follow = .ok found) : fs.isDirectory parent = true := by
  obtain ⟨idle, hidle, hparent⟩ := h.segments_parent
  have hnames : ∃ base, fs.namesFromRoot p = base ++ Text.splitOnChar (· == '/') more ∧
      fs.namesFromRoot parent = base ++ idle := by
    rw [namesFromRoot, namesFromRoot, h.isAbsolute, h.segments, hparent]
    split
    · exact ⟨_, rfl, rfl⟩
    · exact ⟨_, (List.append_assoc _ _ _).symm, (List.append_assoc _ _ _).symm⟩
  obtain ⟨base, hp, hq⟩ := hnames
  have hw := walk_of_locate hl
  rw [hp] at hw
  have hslash : ∀ segment ∈ base, '/' ∉ segment := fun segment hmem =>
    not_slash_of_mem_namesFromRoot (hp ▸ List.mem_append_left _ hmem)
  obtain ⟨place, hplace, hnode⟩ :=
    directory_of_walk hidle h.exists_segment ⟨Direct.root fs, node?_root fs⟩ hslash hw
  have hwalkable : IsWalkable parent := (isWalkable_of_locate hl).of_start h.isPrefix h.parent_ne_nil
  have hlocate : fs.locate parent = .ok (.taken place) := by rw [locate_of_isWalkable hwalkable, hq, hplace]
  exact isDirectory_iff.2 (status_eq_ok_iff.2 ⟨place, find_eq_ok_iff.2 hlocate, hnode⟩)

/-! ## Paths without the slashes at their end -/

/-- A name is found, though not followed, where the path leads that it ends. -/
theorem taken_of_walk (hidle : idle.all (·.isEmpty) = true)
    (h : fs.walk true links directory (names ++ idle) = .ok (.taken place)) :
    ∃ place', fs.walk false links directory names = .ok (.taken place') := by
  fun_induction walk fs false links directory names with
  | case1 links directory => exact ⟨directory, rfl⟩
  | case2 links directory segment rest hi ih =>
    rw [List.cons_append, walk, if_pos hi] at h
    exact ih h
  | case3 links directory rest hi ih =>
    rw [List.cons_append, walk, if_neg hi, if_pos rfl] at h
    exact ih h
  | case4 links directory segment rest hi hp hl =>
    rw [List.cons_append, walk, if_neg hi, if_neg hp, if_pos hl] at h
    cases h
  | case5 links directory segment rest hi hp hl name step hnode hr
  | case6 links directory segment rest hi hp hl name step hnode hr =>
    rw [List.cons_append, walk, if_neg hi, if_neg hp, if_neg hl] at h
    simp only [step, name] at hnode
    simp [hnode, hr, hidle] at h
  | case7 links directory segment rest hi hp hl name step hnode ih =>
    rw [List.cons_append, walk, if_neg hi, if_neg hp, if_neg hl] at h
    simp only [step, name] at hnode
    simp only [hnode] at h
    exact ih h
  | case8 links directory segment rest hi hp hl name step content hnode hr => exact ⟨step, rfl⟩
  | case9 links directory segment rest hi hp hl name step content hnode hr =>
    rw [List.cons_append, walk, if_neg hi, if_neg hp, if_neg hl] at h
    simp only [step, name] at hnode
    have hne : rest ≠ [] := by simpa using hr
    simp [hnode, hne] at h
  | case10 links directory segment rest hi hp hl name step target hnode hr => exact ⟨step, rfl⟩
  | case11 directory segment rest hi hp hl name step target hnode hr =>
    rw [List.cons_append, walk, if_neg hi, if_neg hp, if_neg hl] at h
    simp only [step, name] at hnode
    simp [hnode] at h
  | case12 directory segment rest hi hp hl name step target hnode hr links ih =>
    rw [List.cons_append, walk, if_neg hi, if_neg hp, if_neg hl] at h
    simp only [step, name] at hnode
    simp only [hnode, Bool.not_true, Bool.and_false, Bool.false_eq_true, if_false,
      ← List.append_assoc] at h
    exact ih h

theorem locateName_eq (p : Path) : fs.locateName p = fs.locate p.unslashed false := rfl

theorem namesFromRoot_unslashed (fs : FileSystem) (p : Path) : ∃ idle, idle.all (·.isEmpty) = true ∧
    fs.namesFromRoot p = fs.namesFromRoot p.unslashed ++ idle := by
  obtain ⟨slashes, hslashes, htext, hhead⟩ := p.exists_unslashed
  have habsolute : p.unslashed.isAbsolute = p.isAbsolute := by rw [Path.isAbsolute, Path.isAbsolute, hhead]
  have hsegments : ∃ idle, idle.all (·.isEmpty) = true ∧ p.segments = p.unslashed.segments ++ idle := by
    rw [Path.segments, Path.segments, htext]
    cases slashes with
    | nil => exact ⟨[], rfl, by rw [List.append_nil, List.append_nil]⟩
    | cons c slashes =>
      obtain rfl := hslashes c (by simp)
      refine ⟨_, ?_, Text.splitOnChar_append_cons (by simp) _ _⟩
      exact Text.isEmpty_of_splitOnChar fun d hd => by simpa using hslashes d (List.mem_cons_of_mem _ hd)
  obtain ⟨idle, hidle, hs⟩ := hsegments
  refine ⟨idle, hidle, ?_⟩
  rw [namesFromRoot, namesFromRoot, habsolute, hs]
  split
  · rfl
  · rw [List.append_assoc]

/-- Where there is a directory, none is made. -/
theorem makeDirectory_of_isDirectory (h : fs.isDirectory p = true) :
    fs.makeDirectory p = .error .alreadyExists := by
  obtain ⟨place, hf, -⟩ := status_eq_ok_iff.1 (isDirectory_iff.1 h)
  have hl := find_eq_ok_iff.1 hf
  obtain ⟨idle, hidle, hnames⟩ := namesFromRoot_unslashed fs p
  have hw := walk_of_locate hl
  rw [hnames] at hw
  obtain ⟨place', hw'⟩ := taken_of_walk hidle hw
  have hwalkable : IsWalkable p.unslashed := by
    obtain ⟨slashes, -, htext, hhead⟩ := p.exists_unslashed
    refine (isWalkable_of_locate hl).of_start ⟨slashes, htext.symm⟩ fun hnil => ?_
    have hempty := (isWalkable_of_locate hl).1
    rw [hnil, List.head?_nil, eq_comm, List.head?_eq_none_iff, String.toList_eq_nil_iff] at hhead
    simp [Path.isEmpty, hhead] at hempty
  have hlocate : fs.locateName p = .ok (.taken place') := by
    rw [locateName_eq, locate_of_isWalkable hwalkable, hw']
  rw [makeDirectory, hlocate]
  rfl

/-- What was made cannot be made again. -/
theorem makeDirectory_again (h : fs.makeDirectory p = .ok fs') :
    fs'.makeDirectory p = .error .alreadyExists := by
  obtain ⟨found, hl, hputs⟩ := puts_of_makeDirectory h
  have hthere : fs'.locateName p = .ok (.taken found.location) :=
    locate_of_extends hputs.kept hl (.inr (by rw [hputs.node?, if_pos rfl]))
  rw [makeDirectory, hthere]
  rfl

/-- A directory is only made in a directory. -/
theorem isDirectory_parent_of_makeDirectory {front more : List Char} (hb : Path.Below p parent front more)
    (h : fs.makeDirectory p = .ok fs') : fs.isDirectory parent = true := by
  obtain ⟨found, hl, -⟩ := puts_of_makeDirectory h
  have htext : (Text.dropBack (· == '/') p.text.toList).isEmpty = false := by
    have hne := hb.dropBack.text
    rw [String.toList_ofList] at hne
    rw [hne]
    cases front <;> rfl
  rw [locateName_eq, Path.unslashed, htext] at hl
  exact isDirectory_of_below hb.dropBack hl

theorem isDirectory_parent {front more : List Char} (hb : Path.Below p parent front more)
    (h : fs.isDirectory p = true) : fs.isDirectory parent = true := by
  obtain ⟨place, hf, -⟩ := status_eq_ok_iff.1 (isDirectory_iff.1 h)
  exact isDirectory_of_below hb (find_eq_ok_iff.1 hf)

end FileSystem

end Galley
