import Galley.Proofs.FileSystem.Entry

/-! # What paths denote

The components of a path denote a location: a name goes to what stands under it, a link is replaced by the
components of its target, and `..` goes to the directory above the one that was reached. That is said here
without the limits of a walk. Components denote one location at most, and a walk ends at that one. -/

namespace Galley

namespace Path

/-- The components of a segment list behind its first slash. -/
def innerComponents (names : List (List Char)) : List Component :=
  (names.filter fun s => !isIdle s).map ofSegment

@[simp] theorem innerComponents_nil : innerComponents [] = [] := rfl

theorem innerComponents_append (names more : List (List Char)) :
    innerComponents (names ++ more) = innerComponents names ++ innerComponents more := by
  rw [innerComponents, List.filter_append, List.map_append, innerComponents, innerComponents]

theorem innerComponents_idle {segment : List Char} (h : isIdle segment = true)
    (names : List (List Char)) : innerComponents (segment :: names) = innerComponents names := by
  rw [innerComponents, List.filter_cons_of_neg (by simp [h]), innerComponents]

theorem innerComponents_cons {segment : List Char} (h : isIdle segment = false)
    (names : List (List Char)) :
    innerComponents (segment :: names) = ofSegment segment :: innerComponents names := by
  rw [innerComponents, List.filter_cons_of_pos (by simp [h]), List.map_cons, innerComponents]

/-- Only the first segment of a path that begins with a slash is empty, but for the empty path. -/
theorem segments_cases (p : Path) :
    (p.isAbsolute = true ∧ ∃ next rest, p.segments = [] :: next :: rest) ∨
      (p.isAbsolute = false ∧
        (p.segments = [[]] ∨ ∃ first rest, p.segments = first :: rest ∧ first ≠ [])) := by
  rw [isAbsolute, segments]
  cases p.text.toList with
  | nil => exact .inr ⟨rfl, .inl rfl⟩
  | cons c text =>
    obtain ⟨next, rest, hs⟩ := List.exists_cons_of_ne_nil (Text.splitOnChar_ne_nil (· == '/') text)
    by_cases hc : c = '/'
    · exact .inl ⟨by simp [hc], next, rest, by simp [Text.splitOnChar, hc, hs]⟩
    · exact .inr ⟨by simp [hc], .inr ⟨c :: next, rest, by simp [Text.splitOnChar, hc, hs], by simp⟩⟩

/-- The components of a path are the inner ones, after the root or a leading `.` when there is one. -/
theorem components_cases (p : Path) :
    (p.isAbsolute = true ∧ p.components = .root :: innerComponents p.segments) ∨
      (p.isAbsolute = false ∧ (p.components = innerComponents p.segments ∨
        p.components = .current :: innerComponents p.segments)) := by
  rcases segments_cases p with ⟨ha, next, rest, hs⟩ | ⟨ha, hs | ⟨first, rest, hs, hne⟩⟩
  · exact .inl ⟨ha, by simp [components, innerComponents, hs, isIdle]⟩
  · exact .inr ⟨ha, .inl (by simp [components, innerComponents, hs, isIdle])⟩
  · refine .inr ⟨ha, ?_⟩
    by_cases hdot : first = ['.']
    · exact .inr (by simp [components, innerComponents, hs, isIdle, hdot])
    · exact .inl (by simp [components, innerComponents, hs, isIdle, hne, hdot])

end Path

namespace FileSystem

open Galley.Path (Component innerComponents)

/-- The directory that a component leads to, seen from another. -/
def enter? (fs : FileSystem) (directory : Location) : Component → Option Location
  | .root => some []
  | .current => some directory
  | .parent => some directory.dropLast
  | .normal name =>
    if fs.node? (directory ++ [name]) = some .directory then some (directory ++ [name]) else none

/-- The location that components denote, seen from a directory. -/
inductive Denotes (fs : FileSystem) : Location → List Component → Location → Prop where
  | done {directory : Location} : Denotes fs directory [] directory
  | enter {directory next place : Location} {component : Component} {rest : List Component} :
      fs.enter? directory component = some next → Denotes fs next rest place →
      Denotes fs directory (component :: rest) place
  | file {directory : Location} {name : String} {content : Text.Bytes} :
      fs.node? (directory ++ [name]) = some (.file content) →
      Denotes fs directory [.normal name] (directory ++ [name])
  | link {directory place : Location} {name target : String} {rest : List Component} :
      fs.node? (directory ++ [name]) = some (.link target) →
      Denotes fs directory ((⟨target⟩ : Path).components ++ rest) place →
      Denotes fs directory (.normal name :: rest) place

variable {fs : FileSystem} {directory next place other : Location} {name : String}
  {components rest : List Component}

theorem enter?_of_directory (h : fs.node? (directory ++ [name]) = some .directory) :
    fs.enter? directory (.normal name) = some (directory ++ [name]) := if_pos h

theorem directory_of_enter? (h : fs.enter? directory (.normal name) = some next) :
    fs.node? (directory ++ [name]) = some .directory := by
  rw [enter?] at h
  split at h
  · assumption
  · cases h

theorem Denotes.unique (h : fs.Denotes directory components place)
    (h' : fs.Denotes directory components other) : place = other := by
  induction h with
  | done => cases h'; rfl
  | enter hn _ ih =>
    cases h' with
    | enter hn' h' =>
      obtain rfl := Option.some.inj (hn.symm.trans hn')
      exact ih h'
    | file hn' => cases (directory_of_enter? hn).symm.trans hn'
    | link hn' _ => cases (directory_of_enter? hn).symm.trans hn'
  | file hn =>
    cases h' with
    | enter hn' _ => cases (directory_of_enter? hn').symm.trans hn
    | file _ => rfl
    | link hn' _ => cases hn.symm.trans hn'
  | link hn _ ih =>
    cases h' with
    | enter hn' _ => cases (directory_of_enter? hn').symm.trans hn
    | file hn' => cases hn.symm.trans hn'
    | link hn' h' =>
      obtain rfl := Node.link.inj (Option.some.inj (hn.symm.trans hn'))
      exact ih h'

/-- A path is seen from the root when it is absolute. -/
theorem Denotes.of_inner {p : Path}
    (h : fs.Denotes (if p.isAbsolute then [] else directory) (innerComponents p.segments ++ rest) place) :
    fs.Denotes directory (p.components ++ rest) place := by
  rcases Path.components_cases p with ⟨ha, hc⟩ | ⟨ha, hc | hc⟩
  · rw [if_pos ha] at h
    rw [hc]
    exact .enter rfl h
  · rw [if_neg (by simp [ha])] at h
    rwa [hc]
  · rw [if_neg (by simp [ha])] at h
    rw [hc]
    exact .enter rfl h

theorem Denotes.of_segments {p : Path}
    (h : fs.Denotes (if p.isAbsolute then [] else directory) (innerComponents p.segments) place) :
    fs.Denotes directory p.components place := by
  rw [← List.append_nil p.components]
  exact .of_inner (by rwa [List.append_nil])

/-- What comes first denotes a location, and the rest is seen from there. -/
theorem Denotes.split {front : List Component} (h : fs.Denotes directory (front ++ rest) place) :
    ∃ middle, fs.Denotes directory front middle ∧ fs.Denotes middle rest place := by
  generalize hall : front ++ rest = all at h
  induction h generalizing front with
  | done =>
    obtain ⟨rfl, rfl⟩ := List.append_eq_nil_iff.1 hall
    exact ⟨_, .done, .done⟩
  | enter hn h ih =>
    rcases List.append_eq_cons_iff.1 hall with ⟨rfl, rfl⟩ | ⟨front', rfl, rfl⟩
    · exact ⟨_, .done, .enter hn h⟩
    · obtain ⟨middle, hf, hr⟩ := ih rfl
      exact ⟨middle, .enter hn hf, hr⟩
  | file hn =>
    rcases List.append_eq_cons_iff.1 hall with ⟨rfl, rfl⟩ | ⟨front', rfl, hnil⟩
    · exact ⟨_, .done, .file hn⟩
    · obtain ⟨rfl, rfl⟩ := List.append_eq_nil_iff.1 hnil.symm
      exact ⟨_, .file hn, .done⟩
  | link hn h ih =>
    rcases List.append_eq_cons_iff.1 hall with ⟨rfl, rfl⟩ | ⟨front', rfl, rfl⟩
    · exact ⟨_, .done, .link hn h⟩
    · obtain ⟨middle, hf, hr⟩ := ih (List.append_assoc _ _ _)
      exact ⟨middle, .link hn hf, hr⟩

/-- A walk ends where its names denote. -/
theorem denotes_of_walk {links : Nat} {names : List (List Char)}
    (h : fs.walk true links directory names = .ok (.taken place)) :
    fs.Denotes directory (innerComponents names) place := by
  -- along the walk, since a link puts the segments of its target in front of those that are left
  fun_induction walk fs true links directory names with
  | case1 links directory =>
    obtain rfl : directory = place := by simpa using h
    exact .done
  | case2 links directory segment rest hi ih =>
    rw [Path.innerComponents_idle hi]
    exact ih h
  | case3 links directory rest hi ih =>
    rw [Path.innerComponents_cons (by simpa using hi)]
    exact .enter rfl (ih h)
  | case4 | case5 | case6 | case9 | case11 => simp at h
  | case7 links directory segment rest hi hp hl name step hnode ih =>
    rw [Path.innerComponents_cons (by simpa using hi), Path.ofSegment, if_neg hp]
    exact .enter (enter?_of_directory hnode) (ih h)
  | case8 links directory segment rest hi hp hl name step content hnode hr =>
    obtain rfl : step = place := by simpa using h
    rw [List.isEmpty_iff.1 hr, Path.innerComponents_cons (by simpa using hi), Path.ofSegment, if_neg hp]
    exact .file hnode
  | case10 links directory segment rest hi hp hl name step target hnode hr => simp at hr
  | case12 directory segment rest hi hp hl name step target hnode hr links ih =>
    rw [Path.innerComponents_cons (by simpa using hi), Path.ofSegment, if_neg hp]
    refine .link hnode (Denotes.of_inner ?_)
    rw [← Path.innerComponents_append]
    exact ih h

/-- The location that a path denotes. A relative path is seen from where the path of the current directory
leads. -/
inductive PathDenotes (fs : FileSystem) (p : Path) (place : Location) : Prop where
  | absolute : p.isAbsolute = true → fs.Denotes [] p.components place → PathDenotes fs p place
  | relative {here : Location} : p.isAbsolute = false →
      fs.Denotes [] (Path.ofLocation fs.current).components here → fs.Denotes here p.components place →
      PathDenotes fs p place

theorem PathDenotes.unique {p : Path} (h : fs.PathDenotes p place) (h' : fs.PathDenotes p other) :
    place = other := by
  cases h with
  | absolute ha h =>
    cases h' with
    | absolute _ h' => exact h.unique h'
    | relative ha' _ _ => cases ha.symm.trans ha'
  | relative ha hh h =>
    cases h' with
    | absolute ha' _ => cases ha.symm.trans ha'
    | relative _ hh' h' =>
      obtain rfl := hh.unique hh'
      exact h.unique h'

/-- What a path leads to stands where the path denotes. -/
theorem pathDenotes_of_find {p : Path} (h : fs.find p = .ok place) : fs.PathDenotes p place := by
  have hw := denotes_of_walk (walk_of_locate (find_eq_ok_iff.1 h))
  rw [namesFromRoot] at hw
  split at hw
  · next ha => exact .absolute ha (.of_segments (by rwa [if_pos ha]))
  · next ha =>
    rw [Path.innerComponents_append] at hw
    obtain ⟨here, hh, hp⟩ := hw.split
    have hfrom : fs.Denotes [] (Path.ofLocation fs.current).components here :=
      .of_segments (by rwa [if_pos (Path.isAbsolute_ofLocation _)])
    exact .relative (Bool.eq_false_iff.2 ha) hfrom (.of_segments (by rwa [if_neg ha]))

end FileSystem

end Galley
