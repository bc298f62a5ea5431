import Galley.Proofs.FileSystem.Removal
import Galley.Proofs.FileSystem.Ways

/-! # What a walk visits

A walk depends on nothing but the locations that it comes to on its way, through whatever links. In two file
systems that agree on these it ends alike. -/

namespace Galley.FileSystem

/-- The locations that a walk comes to when it follows every link: each name that it looks for, also where the
way goes on or leads back, and the directory where it stops. -/
inductive Visits (fs : FileSystem) : Location → List (List Char) → Location → Prop where
  | stop {directory : Location} : Visits fs directory [] directory
  | idle {directory place : Location} {segment : List Char} {rest : List (List Char)} :
      Path.isIdle segment = true → Visits fs directory rest place →
      Visits fs directory (segment :: rest) place
  | up {directory place : Location} {rest : List (List Char)} :
      Visits fs directory.dropLast rest place → Visits fs directory (['.', '.'] :: rest) place
  | name {directory : Location} {segment : List Char} {rest : List (List Char)} :
      Path.isIdle segment = false → segment ≠ ['.', '.'] →
      Visits fs directory (segment :: rest) (directory ++ [String.ofList segment])
  | enter {directory place : Location} {segment : List Char} {rest : List (List Char)} :
      Path.isIdle segment = false → segment ≠ ['.', '.'] →
      fs.node? (directory ++ [String.ofList segment]) = some .directory →
      Visits fs (directory ++ [String.ofList segment]) rest place →
      Visits fs directory (segment :: rest) place
  | follow {directory place : Location} {segment : List Char} {rest : List (List Char)}
      {target : String} : Path.isIdle segment = false → segment ≠ ['.', '.'] →
      fs.node? (directory ++ [String.ofList segment]) = some (.link target) →
      Visits fs (targetStart directory target) ((⟨target⟩ : Path).segments ++ rest) place →
      Visits fs directory (segment :: rest) place

variable {fs fs' : FileSystem} {follow : Bool} {links : Nat} {directory place : Location}
  {segment : List Char} {names rest : List (List Char)} {name : String}

theorem visits_nil_iff : fs.Visits directory [] place ↔ place = directory := by
  constructor
  · rintro ⟨⟩
    rfl
  · rintro rfl
    exact .stop

theorem visits_idle_iff (hi : Path.isIdle segment = true) :
    fs.Visits directory (segment :: rest) place ↔ fs.Visits directory rest place := by
  constructor
  · intro h
    cases h with
    | idle _ h => exact h
    | up => cases hi
    | name hn | enter hn | follow hn => simp [hi] at hn
  · exact .idle hi

theorem visits_up_iff :
    fs.Visits directory (['.', '.'] :: rest) place ↔ fs.Visits directory.dropLast rest place := by
  constructor
  · intro h
    cases h with
    | idle hi => cases hi
    | up h => exact h
    | name _ hp | enter _ hp | follow _ hp => exact absurd rfl hp
  · exact .up

/-- A name is visited, and then what comes after it where a directory or a link stands. -/
theorem visits_name_iff (hi : Path.isIdle segment = false) (hp : segment ≠ ['.', '.']) :
    fs.Visits directory (segment :: rest) place ↔
      place = directory ++ [String.ofList segment] ∨
        match fs.node? (directory ++ [String.ofList segment]) with
        | some .directory => fs.Visits (directory ++ [String.ofList segment]) rest place
        | some (.link target) =>
          fs.Visits (targetStart directory target) ((⟨target⟩ : Path).segments ++ rest) place
        | _ => False := by
  constructor
  · intro h
    cases h with
    | idle hn => simp [hi] at hn
    | up => exact absurd rfl hp
    | name => exact .inl rfl
    | enter _ _ hnode h => exact .inr (by simpa only [hnode] using h)
    | follow _ _ hnode h => exact .inr (by simpa only [hnode] using h)
  · rintro (rfl | h)
    · exact .name hi hp
    · split at h
      · next hnode => exact .enter hi hp hnode h
      · next hnode => exact .follow hi hp hnode h
      · cases h

/-- Where file systems agree on what a walk visits, they agree on where it ends. -/
theorem walk_eq_of_visits
    (h : ∀ place, fs.Visits directory names place → fs'.node? place = fs.node? place) :
    fs'.walk follow links directory names = fs.walk follow links directory names := by
  fun_induction walk fs follow links directory names with
  | case1 links directory => rw [walk]
  | case2 links directory segment rest hi ih =>
    rw [walk, if_pos hi]
    exact ih fun place hv => h place (.idle hi hv)
  | case3 links directory rest hi ih =>
    rw [walk, if_neg hi, if_pos rfl]
    exact ih fun place hv => h place (.up hv)
  | case4 links directory segment rest hi hp hl => rw [walk, if_neg hi, if_neg hp, if_pos hl]
  | case5 links directory segment rest hi hp hl name step hnode hr
  | case6 links directory segment rest hi hp hl name step hnode hr
  | case8 links directory segment rest hi hp hl name step content hnode hr
  | case9 links directory segment rest hi hp hl name step content hnode hr
  | case10 links directory segment rest hi hp hl name step target hnode hr
  | case11 directory segment rest hi hp hl name step target hnode hr =>
    have hsame := (h _ (.name (by simpa using hi) hp)).trans hnode
    rw [walk, if_neg hi, if_neg hp, if_neg hl]
    simp [hsame, hr, step, name]
  | case7 links directory segment rest hi hp hl name step hnode ih =>
    have hsame := (h _ (.name (by simpa using hi) hp)).trans hnode
    rw [walk, if_neg hi, if_neg hp, if_neg hl]
    simp only [hsame]
    exact ih fun place hv => h place (.enter (by simpa using hi) hp hnode hv)
  | case12 directory segment rest hi hp hl name step target hnode hr links ih =>
    have hsame := (h _ (.name (by simpa using hi) hp)).trans hnode
    rw [walk, if_neg hi, if_neg hp, if_neg hl]
    simp only [hsame, hr]
    exact ih fun place hv => h place (.follow (by simpa using hi) hp hnode hv)

theorem visits_of_walk (h : fs.walk follow links directory names = .ok (.taken place)) :
    fs.Visits directory names place := by
  fun_induction walk fs follow links directory names with
  | case1 links directory =>
    obtain rfl : directory = place := by simpa using h
    exact .stop
  | case2 links directory segment rest hi ih => exact .idle hi (ih h)
  | case3 links directory rest hi ih => exact .up (ih h)
  | case4 | case5 | case6 | case9 | case11 => cases h
  | case7 links directory segment rest hi hp hl name step hnode ih =>
    exact .enter (by simpa using hi) hp hnode (ih h)
  | case8 links directory segment rest hi hp hl name step content hnode hr
  | case10 links directory segment rest hi hp hl name step target hnode hr =>
    obtain rfl : step = place := by simpa using h
    exact .name (by simpa using hi) hp
  | case12 directory segment rest hi hp hl name step target hnode hr links ih =>
    exact .follow (by simpa using hi) hp hnode (ih h)

/-! ## Names in a directory -/

/-- A name that is no link is visited alone. -/
theorem eq_of_visits_child (hn : Path.IsName name) {other : Location}
    (hlink : ∀ target, fs.node? (place ++ [name]) ≠ some (.link target))
    (h : fs.Visits place [name.toList] other) : other = place ++ [name] := by
  rw [visits_name_iff hn.notIdle hn.notParent, String.ofList_toList] at h
  rcases h with rfl | h
  · rfl
  · split at h
    · exact visits_nil_iff.1 h
    · next target hnode => exact absurd hnode (hlink target)
    · cases h

/-- The status of a name in a directory is what stands there, or what a link there leads to. -/
theorem node_of_status_child {node : Node} (hd : fs.IsDirectoryAt place) (hn : Path.IsName name)
    (h : fs.status (.ofLocation (place ++ [name])) = .ok node) :
    fs.find (.ofLocation (place ++ [name])) false = .ok (place ++ [name]) ∧
      (fs.node? (place ++ [name]) = some node ∨
        ∃ target, fs.node? (place ++ [name]) = some (.link target)) := by
  obtain ⟨found, hf, hnode⟩ := status_eq_ok_iff.1 h
  have hl := find_eq_ok_iff.1 hf
  cases hchild : fs.node? (place ++ [name]) with
  | none => cases locate_child_free hd hn hchild hl
  | some standing =>
    obtain ⟨unfollowed, hw, -⟩ := walk_unfollowed (walk_of_locate hl)
    rw [← locate_eq_walk hl fs false] at hw
    obtain rfl := locate_child_taken hd hn hchild (.inl rfl) hw
    refine ⟨find_eq_ok_iff.2 hw, ?_⟩
    by_cases hlink : ∃ target, standing = .link target
    · obtain ⟨target, rfl⟩ := hlink
      exact .inr ⟨target, rfl⟩
    · have hsame := locate_child_taken hd hn hchild (.inr fun target he => hlink ⟨target, he⟩) hl
      obtain rfl := Place.taken.inj hsame
      exact .inl (hchild.symm.trans hnode)

theorem status_child_of_walk {found : Location} {node : Node} (hd : fs.IsDirectoryAt place)
    (hn : Path.IsName name) (hp : IsWalkable (.ofLocation (place ++ [name])))
    (hw : fs.walk true linkLimit place [name.toList] = .ok (.taken found)) (hnode : fs.node? found = some node) :
    fs.status (.ofLocation (place ++ [name])) = .ok node := by
  refine status_eq_ok_iff.2 ⟨found, find_eq_ok_iff.2 ?_, hnode⟩
  rw [locate_of_isWalkable hp, walk_namesFromRoot_child hd hn, hw]

theorem locate_child_eq (hd : fs.IsDirectoryAt place) (hd' : fs'.IsDirectoryAt place)
    (hn : Path.IsName name)
    (h : ∀ other, fs.Visits place [name.toList] other → fs'.node? other = fs.node? other) :
    fs'.locate (.ofLocation (place ++ [name])) follow = fs.locate (.ofLocation (place ++ [name])) follow := by
  simp only [locate, walk_namesFromRoot_child hd hn, walk_namesFromRoot_child hd' hn, walk_eq_of_visits h]

/-- Where file systems agree on what is visited from a name, they have the same there. -/
theorem status_child_eq (hd : fs.IsDirectoryAt place) (hd' : fs'.IsDirectoryAt place)
    (hn : Path.IsName name)
    (h : ∀ other, fs.Visits place [name.toList] other → fs'.node? other = fs.node? other) :
    fs'.status (.ofLocation (place ++ [name])) = fs.status (.ofLocation (place ++ [name])) := by
  have hfind : fs'.find (.ofLocation (place ++ [name])) = fs.find (.ofLocation (place ++ [name])) := by
    simp only [find, locate_child_eq hd hd' hn h]
  cases hf : fs.find (.ofLocation (place ++ [name])) with
  | error e => simp [status, hfind, hf, bind, Except.bind]
  | ok other =>
    have hvisits : fs.Visits place [name.toList] other :=
      visits_of_walk (walk_child hd hn (find_eq_ok_iff.1 hf))
    simp [status, hfind, hf, h other hvisits, bind, Except.bind]

end Galley.FileSystem
