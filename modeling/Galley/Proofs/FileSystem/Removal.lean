import Galley.FileSystem.Ensure
import Galley.Proofs.FileSystem.Entry

/-! # Removing a file

Whatever links lead to a file, the last name on its path can be removed, and then no file is found under
that path. -/

namespace Galley.FileSystem

variable {fs fs' : FileSystem} {links : Nat} {directory place : Location} {names : List (List Char)}
  {found : Place} {p : Path}

/-! ## Walks that stop at a link -/

/-- Without following a link at its end, a walk ends where it does otherwise, or at a link. -/
theorem walk_unfollowed (h : fs.walk true links directory names = .ok found) :
    ∃ found', fs.walk false links directory names = .ok found' ∧
      (found' = found ∨ ∃ place target, found' = .taken place ∧ fs.node? place = some (.link target)) := by
  fun_induction walk fs true links directory names with
  | case1 links directory => exact ⟨found, by simpa [walk] using h, .inl rfl⟩
  | case2 links directory segment rest hi ih =>
    rw [walk, if_pos hi]
    exact ih h
  | case3 links directory rest hi ih =>
    rw [walk, if_neg hi, if_pos rfl]
    exact ih h
  | case4 | case6 | case9 | case11 => cases h
  | case5 links directory segment rest hi hp hl name step hnode hr =>
    refine ⟨found, ?_, .inl rfl⟩
    rw [walk, if_neg hi, if_neg hp, if_neg hl]
    simp only [step, name] at hnode
    simpa only [hnode, hr, if_true] using h
  | case7 links directory segment rest hi hp hl name step hnode ih =>
    rw [walk, if_neg hi, if_neg hp, if_neg hl]
    simp only [step, name] at hnode
    simp only [hnode]
    exact ih h
  | case8 links directory segment rest hi hp hl name step content hnode hr =>
    refine ⟨found, ?_, .inl rfl⟩
    rw [walk, if_neg hi, if_neg hp, if_neg hl]
    simp only [step, name] at hnode
    simpa only [hnode, hr, if_true] using h
  | case10 links directory segment rest hi hp hl name step target hnode hr => simp at hr
  | case12 directory segment rest hi hp hl name step target hnode hr links ih =>
    rw [walk, if_neg hi, if_neg hp, if_neg hl]
    by_cases he : rest.isEmpty = true
    · refine ⟨.taken step, ?_, .inr ⟨step, target, rfl, hnode⟩⟩
      simp only [step, name] at hnode
      simp only [hnode, he, Bool.not_false, Bool.and_true, if_true]
      rfl
    · simp only [step, name] at hnode
      simp only [hnode, he, Bool.false_and, Bool.false_eq_true, if_false]
      exact ih h

/-! ## Walks to what was removed -/

/-- What stands directly in a directory after something that is no directory was removed. -/
theorem node?_remove_child (hd : fs.IsDirectoryAt directory) (hplace : fs.node? place ≠ some .directory)
    (name : String) : (fs.remove place).node? (directory ++ [name]) =
      if directory ++ [name] = place then none else fs.node? (directory ++ [name]) := by
  have hnot : ¬place <+: directory := fun hpre => by
    by_cases he : place = directory
    · exact hplace (he ▸ hd.node)
    · exact hplace (hd.direct.onTheWay place hpre he)
  rw [node?_remove]
  by_cases he : directory ++ [name] = place
  · rw [if_pos he, if_neg (by simp [← he])]
  · rw [if_neg he, if_pos]
    refine .inr fun hpre => ?_
    rcases List.prefix_concat_iff.1 hpre with hsame | hpre
    · exact he hsame.symm
    · exact hnot hpre

/-- A walk that met nothing at some name ended there. -/
theorem walk_of_free {follow : Bool} {segment : List Char} {rest : List (List Char)}
    (hi : ¬Path.isIdle segment = true) (hp : ¬segment = ['.', '.'])
    (hl : ¬nameLimit < Text.utf8Size segment)
    (hnode : fs.node? (directory ++ [String.ofList segment]) = none) (other : Location) :
    fs.walk follow links directory (segment :: rest) ≠ .ok (.taken other) := by
  rw [walk, if_neg hi, if_neg hp, if_neg hl]
  simp only [hnode]
  split <;> simp

/-- Where a walk ended at a file or a link, nothing is found after that was removed. -/
theorem walk_remove (h : fs.walk false links directory names = .ok (.taken place))
    (hplace : fs.node? place ≠ some .directory) (hd : fs.IsDirectoryAt directory)
    (hs : ∀ segment ∈ names, '/' ∉ segment) (other : Location) :
    (fs.remove place).walk true links directory names ≠ .ok (.taken other) := by
  fun_induction walk fs false links directory names with
  | case1 links directory =>
    obtain rfl : directory = place := by simpa using h
    exact absurd hd.node hplace
  | case2 links directory segment rest hi ih =>
    rw [walk, if_pos hi]
    exact ih h hd fun s hm => hs s (List.mem_cons_of_mem _ hm)
  | case3 links directory rest hi ih =>
    obtain ⟨hd', hn'⟩ := hd.direct.dropLast hd.node
    rw [walk, if_neg hi, if_pos rfl]
    exact ih h ⟨hd', hn'⟩ fun s hm => hs s (List.mem_cons_of_mem _ hm)
  | case4 | case5 | case6 | case9 | case11 => cases h
  | case7 links directory segment rest hi hp hl name step hnode ih =>
    have hname := Path.isName_ofList (hs segment (by simp)) (by simpa using hi) hp
    have hstep : fs.IsDirectoryAt step :=
      ⟨hd.direct.append hd.node hname (by simpa [name] using hl), hnode⟩
    have hne : step ≠ place := fun he => hplace (he ▸ hnode)
    have hkept : (fs.remove place).node? step = some .directory := by
      rw [node?_remove_child hd hplace, if_neg hne, hnode]
    rw [walk, if_neg hi, if_neg hp, if_neg hl]
    simp only [step, name] at hkept
    simp only [hkept]
    exact ih h hstep fun s hm => hs s (List.mem_cons_of_mem _ hm)
  | case8 links directory segment rest hi hp hl name step content hnode hr
  | case10 links directory segment rest hi hp hl name step target hnode hr =>
    obtain rfl : step = place := by simpa using h
    exact walk_of_free hi hp hl (by rw [node?_remove_child hd hplace, if_pos rfl]) other
  | case12 directory segment rest hi hp hl name step target hnode hr links ih =>
    by_cases he : step = place
    · -- the link that is removed is also on the way
      exact walk_of_free hi hp hl (by rw [node?_remove_child hd hplace, if_pos he]) other
    · have hkept : (fs.remove place).node? step = some (.link target) := by
        rw [node?_remove_child hd hplace, if_neg he, hnode]
      rw [walk, if_neg hi, if_neg hp, if_neg hl]
      simp only [step, name] at hkept
      simp only [hkept, Bool.not_true, Bool.and_false, Bool.false_eq_true, if_false]
      have hsegments : ∀ s ∈ (⟨target⟩ : Path).segments ++ rest, '/' ∉ s := fun s hm =>
        (List.mem_append.1 hm).elim Path.not_slash_of_mem_segments fun hm =>
          hs s (List.mem_cons_of_mem _ hm)
      by_cases ha : (⟨target⟩ : Path).isAbsolute = true
      · rw [targetStart, if_pos ha] at ih h ⊢
        exact ih h ⟨Direct.root fs, node?_root fs⟩ hsegments
      · rw [targetStart, if_neg ha] at ih h ⊢
        exact ih h hd hsegments

/-! ## Slashes at the end -/

/-- Names with a slash after them lead to a directory. -/
theorem directory_of_walk_slash (h : fs.walk true links directory names = .ok (.taken place))
    (hslash : names = [] ∨ names.getLast? = some []) (hd : fs.IsDirectoryAt directory)
    (hs : ∀ segment ∈ names, '/' ∉ segment) : fs.node? place = some .directory := by
  have hrest : ∀ {segment : List Char} {rest : List (List Char)},
      segment :: rest = [] ∨ (segment :: rest).getLast? = some [] →
      rest = [] ∧ segment = [] ∨ rest ≠ [] ∧ rest.getLast? = some [] := by
    intro segment rest hslash
    cases rest <;> simp_all
  fun_induction walk fs true links directory names with
  | case1 links directory =>
    obtain rfl : directory = place := by simpa using h
    exact hd.node
  | case2 links directory segment rest hi ih =>
    refine ih h ?_ hd fun s hm => hs s (List.mem_cons_of_mem _ hm)
    exact (hrest hslash).imp And.left And.right
  | case3 links directory rest hi ih =>
    obtain ⟨hd', hn'⟩ := hd.direct.dropLast hd.node
    refine ih h ?_ ⟨hd', hn'⟩ fun s hm => hs s (List.mem_cons_of_mem _ hm)
    exact (hrest hslash).imp And.left And.right
  | case4 | case5 | case6 | case9 | case11 => cases h
  | case7 links directory segment rest hi hp hl name step hnode ih =>
    have hname := Path.isName_ofList (hs segment (by simp)) (by simpa using hi) hp
    refine ih h ?_ ⟨hd.direct.append hd.node hname (by simpa [name] using hl), hnode⟩
      fun s hm => hs s (List.mem_cons_of_mem _ hm)
    exact (hrest hslash).imp And.left And.right
  | case8 links directory segment rest hi hp hl name step content hnode hr =>
    rcases hrest hslash with ⟨-, rfl⟩ | ⟨hne, -⟩
    · exact absurd rfl hi
    · exact absurd (List.isEmpty_iff.1 hr) hne
  | case10 links directory segment rest hi hp hl name step target hnode hr => simp at hr
  | case12 directory segment rest hi hp hl name step target hnode hr links ih =>
    rcases hrest hslash with ⟨-, rfl⟩ | ⟨hne, hlast⟩
    · exact absurd rfl hi
    have hsegments : ∀ s ∈ (⟨target⟩ : Path).segments ++ rest, '/' ∉ s := fun s hm =>
      (List.mem_append.1 hm).elim Path.not_slash_of_mem_segments fun hm =>
        hs s (List.mem_cons_of_mem _ hm)
    have hends : ((⟨target⟩ : Path).segments ++ rest).getLast? = some [] := by
      rw [List.getLast?_append, hlast]
      rfl
    by_cases ha : (⟨target⟩ : Path).isAbsolute = true
    · rw [targetStart, if_pos ha] at ih h
      exact ih h (.inr hends) ⟨Direct.root fs, node?_root fs⟩ hsegments
    · rw [targetStart, if_neg ha] at ih h
      exact ih h (.inr hends) hd hsegments

theorem getLast?_segments (h : endsInSlash p = true) : p.segments.getLast? = some [] := by
  rcases List.eq_nil_or_concat p.text.toList with he | ⟨init, c, he⟩
  · simp [endsInSlash, he] at h
  · rw [List.concat_eq_append] at he
    obtain rfl : c = '/' := by simpa [endsInSlash, he] using h
    rw [Path.segments, he, Text.splitOnChar_append_cons (by simp)]
    simp [Text.splitOnChar]

/-- No file is found under a path with a slash at its end. -/
theorem endsInSlash_of_isFile (h : fs.isFile p = true) : endsInSlash p = false := by
  rw [Bool.eq_false_iff]
  intro hslash
  rw [isFile] at h
  split at h
  · next content hstatus =>
    obtain ⟨place, hf, hnode⟩ := status_eq_ok_iff.1 hstatus
    have hlast : (fs.namesFromRoot p).getLast? = some [] := by
      rw [namesFromRoot]
      split
      · exact getLast?_segments hslash
      · rw [List.getLast?_append, getLast?_segments hslash]
        rfl
    have hdirectory := directory_of_walk_slash (walk_of_locate (find_eq_ok_iff.1 hf)) (.inr hlast)
      ⟨Direct.root fs, node?_root fs⟩ fun _ hm => not_slash_of_mem_namesFromRoot hm
    rw [hdirectory] at hnode
    cases hnode
  · cases h

/-! ## Removal -/

theorem locateName_of_noSlash (fs : FileSystem) (h : endsInSlash p = false) :
    fs.locateName p = fs.locate p false := by
  have htext : Text.dropBack (· == '/') p.text.toList = p.text.toList := by
    rcases List.eq_nil_or_concat p.text.toList with he | ⟨init, c, he⟩
    · simp [he, Text.dropBack]
    · rw [List.concat_eq_append] at he
      have hc : c ≠ '/' := by simpa [endsInSlash, he] using h
      simp [he, Text.dropBack, hc]
  simp only [locateName, htext]
  split
  · rfl
  · rw [String.ofList_toList]

/-- What is removed stands where the last name of the path is, and is no directory. -/
theorem exists_of_removeFile (h : fs.removeFile p = .ok fs') :
    ∃ place, fs.locate p false = .ok (.taken place) ∧ fs.node? place ≠ some .directory ∧
      fs' = fs.remove place := by
  simp only [removeFile, bind, Except.bind] at h
  split at h
  · cases h
  next found hl =>
  split at h
  · cases h
  next place =>
  split at h
  · cases h
  next hplace =>
  split at h
  · cases h
  next hslash =>
  rw [locateName_of_noSlash fs (by simpa using hslash)] at hl
  exact ⟨place, hl, hplace, (Except.ok.inj h).symm⟩

/-- After something was removed under a path, no file is found under it. -/
theorem not_isFile_of_removeFile (h : fs.removeFile p = .ok fs') : fs'.isFile p = false := by
  obtain ⟨place, hl, hplace, rfl⟩ := exists_of_removeFile h
  rw [isFile]
  split
  · next content hs =>
    obtain ⟨other, hf, -⟩ := status_eq_ok_iff.1 hs
    exact absurd (walk_of_locate (find_eq_ok_iff.1 hf)) (walk_remove (walk_of_locate hl) hplace
      ⟨Direct.root fs, node?_root fs⟩ (fun _ hm => not_slash_of_mem_namesFromRoot hm) other)
  · rfl

/-- Where a file is found under a path, something can be removed under it. -/
theorem removeFile_of_isFile (h : fs.isFile p = true) : ∃ fs', fs.removeFile p = .ok fs' := by
  have hslash := endsInSlash_of_isFile h
  rw [isFile] at h
  split at h
  · next content hstatus =>
    obtain ⟨place, hf, hnode⟩ := status_eq_ok_iff.1 hstatus
    have hl := find_eq_ok_iff.1 hf
    obtain ⟨found, hw, hfound⟩ := walk_unfollowed (walk_of_locate hl)
    rw [← locate_eq_walk hl fs false, ← locateName_of_noSlash fs hslash] at hw
    rcases hfound with rfl | ⟨place, target, rfl, hnode⟩
    · exact ⟨fs.remove place, by simp [removeFile, hw, hnode, hslash, bind, Except.bind]⟩
    · exact ⟨fs.remove place, by simp [removeFile, hw, hnode, hslash, bind, Except.bind]⟩
  · cases h

theorem removeIfThere_eq_some (h : fs.removeIfThere p = .ok (some fs')) :
    fs.removeFile p = .ok fs' := by
  rw [removeIfThere] at h
  split at h
  · next hremove => rw [hremove, Option.some.inj (Except.ok.inj h)]
  · cases h
  · cases h

/-- A file is only left where there was none. -/
theorem not_isFile_of_unremoved (h : ∀ fs', fs.removeIfThere p ≠ .ok (some fs')) :
    fs.isFile p = false := by
  rw [Bool.eq_false_iff]
  intro hfile
  obtain ⟨fs', hremove⟩ := removeFile_of_isFile hfile
  exact h fs' (by rw [removeIfThere, hremove])

end Galley.FileSystem
