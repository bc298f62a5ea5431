import Galley.Proofs.FileSystem.Child

/-! # Names seen from a path

A name that is seen from a path is looked for where the path leads. It is found there, unless a link
stands under that name. -/

namespace Galley

namespace Text

theorem splitOnChar_ne_nil (p : Char → Bool) (text : List Char) : splitOnChar p text ≠ [] := by
  cases text with
  | nil => simp [splitOnChar]
  | cons c text =>
    rw [splitOnChar]
    split
    · simp
    · split <;> simp

/-- A text is cut at a character as its two sides are. -/
theorem splitOnChar_append_cons {p : Char → Bool} {c : Char} (hc : p c = true) (text rest : List Char) :
    splitOnChar p (text ++ c :: rest) = splitOnChar p text ++ splitOnChar p rest := by
  induction text with
  | nil => simp [splitOnChar, hc]
  | cons d text ih =>
    rw [List.cons_append, splitOnChar, splitOnChar, ih]
    split
    · simp
    · obtain ⟨piece, pieces, he⟩ := List.exists_cons_of_ne_nil (splitOnChar_ne_nil p text)
      simp [he]

end Text

namespace Path

variable {name : String}

theorem segments_of_name {q : Path} (h : q.text = name) (hn : IsName name) :
    q.segments = [name.toList] := by
  rw [segments, h]
  refine Text.splitOnChar_eq_singleton fun c hc => ?_
  rw [beq_eq_false_iff_ne]
  rintro rfl
  exact hn.noSlash hc

/-- A name comes after the segments of the path that it is seen from, but for a slash at its end. -/
theorem segments_join (p : Path) (hn : IsName name) :
    ∃ front idle, p.segments = front ++ idle ∧ idle.all (·.isEmpty) = true ∧
      (p.join name).segments = front ++ [name.toList] := by
  have hname := segments_of_name (q := ⟨name⟩) rfl hn
  have hhead : name.toList.head? ≠ some '/' := fun he => hn.noSlash (List.mem_of_head? he)
  rw [join, if_neg hhead]
  split
  · next hp =>
    rcases List.eq_nil_or_concat p.text.toList with he | ⟨init, c, he⟩
    · refine ⟨[], [[]], by simp [segments, he, Text.splitOnChar], by simp, ?_⟩
      rw [List.nil_append, ← hname]
      simp [segments, he]
    · rw [List.concat_eq_append] at he
      obtain rfl : c = '/' := by
        have hempty : p.text.isEmpty = false := by
          rw [Bool.eq_false_iff, Ne, String.isEmpty_iff]
          rintro h
          simp [h] at he
        simpa [hempty, he] using hp
      refine ⟨Text.splitOnChar (· == '/') init, [[]], ?_, by simp, ?_⟩
      · rw [segments, he, Text.splitOnChar_append_cons (by simp)]
        simp [Text.splitOnChar]
      · rw [← hname, segments, segments, String.toList_append, he, List.append_assoc,
          List.singleton_append, Text.splitOnChar_append_cons (by simp)]
  · refine ⟨p.segments, [], by simp, by simp, ?_⟩
    rw [← hname, segments, segments, segments, String.toList_append, String.toList_append,
      List.append_assoc, show "/".toList = ['/'] from rfl, List.singleton_append,
      Text.splitOnChar_append_cons (by simp)]

theorem isAbsolute_join (p : Path) (hn : IsName name) : (p.join name).isAbsolute = p.isAbsolute := by
  have hhead : name.toList.head? ≠ some '/' := fun he => hn.noSlash (List.mem_of_head? he)
  rw [join, if_neg hhead, isAbsolute, isAbsolute]
  rcases List.eq_nil_or_concat p.text.toList with he | ⟨init, c, he⟩
  · have hempty : p.text.isEmpty = true := by
      rw [String.isEmpty_iff, ← String.toList_eq_nil_iff, he]
    simp [hempty, he, hhead]
  · rw [List.concat_eq_append] at he
    split <;> simp [he, List.head?_append]

end Path

namespace FileSystem

variable {fs : FileSystem} {links : Nat} {directory : Location} {names : List (List Char)}
  {found : Place} {p : Path}

/-- A walk ends with its last name, looked for where the names before lead, with or without slashes after
them. -/
theorem walk_concat {segment : List Char} {idle : List (List Char)} (hs : segment ≠ [])
    (hidle : idle.all (·.isEmpty) = true)
    (h : fs.walk true links directory (names ++ [segment]) = .ok found) :
    ∃ place more, fs.walk true links directory (names ++ idle) = .ok (.taken place) ∧
      fs.walk true more place [segment] = .ok found := by
  fun_induction walk fs true links directory names with
  | case1 links directory => exact ⟨directory, links, walk_idle hidle, h⟩
  | case2 links directory first rest hi ih =>
    rw [List.cons_append, walk, if_pos hi] at h
    rw [List.cons_append, walk, if_pos hi]
    exact ih h
  | case3 links directory rest hi ih =>
    rw [List.cons_append, walk, if_neg hi, if_pos rfl] at h
    rw [List.cons_append, walk, if_neg hi, if_pos rfl]
    exact ih h
  | case4 links directory first rest hi hp hl =>
    rw [List.cons_append, walk, if_neg hi, if_neg hp, if_pos hl] at h
    cases h
  | case5 links directory first rest hi hp hl name step hnode
  | case6 links directory first rest hi hp hl name step hnode
  | case8 links directory first rest hi hp hl name step content hnode
  | case9 links directory first rest hi hp hl name step content hnode
  | case11 directory first rest hi hp hl name step target hnode =>
    rw [List.cons_append, walk, if_neg hi, if_neg hp, if_neg hl] at h
    simp only [step, name] at hnode
    simp [hnode, hs] at h
  | case10 links directory first rest hi hp hl name step target hnode hr => simp at hr
  | case7 links directory first rest hi hp hl name step hnode ih =>
    rw [List.cons_append, walk, if_neg hi, if_neg hp, if_neg hl] at h
    rw [List.cons_append, walk, if_neg hi, if_neg hp, if_neg hl]
    simp only [step, name] at hnode
    simp only [hnode] at h ⊢
    exact ih h
  | case12 directory first rest hi hp hl name step target hnode hr links ih =>
    rw [List.cons_append, walk, if_neg hi, if_neg hp, if_neg hl] at h
    rw [List.cons_append, walk, if_neg hi, if_neg hp, if_neg hl]
    simp only [step, name] at hnode
    simp only [hnode, Bool.not_true, Bool.and_false, Bool.false_eq_true, if_false,
      ← List.append_assoc] at h ⊢
    exact ih h

/-- The names of a path lead to a location. -/
def Leads (fs : FileSystem) (p : Path) (place : Location) : Prop :=
  fs.walk true linkLimit [] (fs.namesFromRoot p) = .ok (.taken place)

theorem namesFromRoot_join {name : String} (fs : FileSystem) (p : Path) (hn : Path.IsName name) :
    ∃ names idle, fs.namesFromRoot p = names ++ idle ∧ idle.all (·.isEmpty) = true ∧
      fs.namesFromRoot (p.join name) = names ++ [name.toList] := by
  obtain ⟨front, idle, hp, hidle, hjoin⟩ := p.segments_join hn
  rw [namesFromRoot, namesFromRoot, Path.isAbsolute_join p hn, hp, hjoin]
  split
  · exact ⟨front, idle, rfl, hidle, rfl⟩
  · exact ⟨_, idle, (List.append_assoc _ _ _).symm, hidle, (List.append_assoc _ _ _).symm⟩

theorem leads_of_locate_join {name : String} (hn : Path.IsName name)
    (h : fs.locate (p.join name) = .ok found) :
    ∃ place, fs.Leads p place ∧ (found.location = place ++ [name] ∨
      ∃ target, fs.node? (place ++ [name]) = some (.link target)) := by
  have hw := walk_of_locate h
  obtain ⟨names, idle, hfront, hidle, hlast⟩ := namesFromRoot_join fs p hn
  rw [hlast] at hw
  obtain ⟨place, more, hplace, hw⟩ := walk_concat hn.ne_nil hidle hw
  refine ⟨place, by rw [Leads, hfront, hplace], ?_⟩
  rw [walk, if_neg (by simp [hn.notIdle]), if_neg hn.notParent, String.ofList_toList] at hw
  split at hw
  · cases hw
  · cases hnode : fs.node? (place ++ [name]) with
    | none =>
      obtain rfl : .vacant place name false = found := by simpa [hnode] using hw
      exact .inl rfl
    | some node =>
      cases node with
      | file content =>
        obtain rfl : .taken (place ++ [name]) = found := by simpa [hnode] using hw
        exact .inl rfl
      | directory =>
        obtain rfl : .taken (place ++ [name]) = found := by simpa [hnode, walk] using hw
        exact .inl rfl
      | link target => exact .inr ⟨target, rfl⟩

end FileSystem

end Galley
