import Galley.FileSystem.Ensure
import Galley.Proofs.FileSystem.Place

/-! # Names in a directory

What is done to the path of a name in a directory is done to that name in that directory. -/

namespace Galley

namespace Path

variable {place : Location} {name : String}

theorem IsName.ne_nil (h : IsName name) : name.toList ≠ [] := fun he => by
  have := h.notIdle
  simp [he, isIdle] at this

theorem toList_ofLocation_append (place : Location) (name : String) :
    (ofLocation (place ++ [name])).text.toList =
      (place.flatMap fun n => '/' :: n.toList) ++ '/' :: name.toList := by
  simp [ofLocation, List.flatMap_map]

/-- The last character of a name is no slash. -/
theorem exists_last (place : Location) (hn : IsName name) :
    ∃ front c, (ofLocation (place ++ [name])).text.toList = front ++ [c] ∧ c ≠ '/' := by
  rw [toList_ofLocation_append]
  rcases List.eq_nil_or_concat name.toList with he | ⟨init, c, he⟩
  · exact absurd he hn.ne_nil
  · refine ⟨(place.flatMap fun n => '/' :: n.toList) ++ '/' :: init, c, by simp [he], ?_⟩
    rintro rfl
    exact hn.noSlash (by simp [he])

/-- A name seen from the path of a directory. -/
theorem join_ofLocation (hp : ∀ n ∈ place, IsName n) (hn : IsName name) :
    (ofLocation place).join name = ofLocation (place ++ [name]) := by
  have hhead : name.toList.head? ≠ some '/' := fun he =>
    hn.noSlash (List.mem_of_head? he)
  rw [join, if_neg hhead]
  rcases List.eq_nil_or_concat place with rfl | ⟨front, last, rfl⟩
  · rw [if_pos (by simp [ofLocation])]
    simp [ofLocation]
  · obtain ⟨init, c, htext, hc⟩ := exists_last front (hp last (by simp))
    have hslash : (ofLocation (front ++ [last])).text.toList.getLast? ≠ some '/' := by
      simpa [htext] using hc
    have hempty : (ofLocation (front ++ [last])).text.isEmpty = false := by
      simp [ofLocation]
    rw [if_neg (by simp [hempty, hslash])]
    simp [ofLocation, String.append_assoc]

/-- The path of a location does not end in a slash. -/
theorem dropBack_ofLocation (hn : IsName name) :
    Text.dropBack (· == '/') (ofLocation (place ++ [name])).text.toList =
      (ofLocation (place ++ [name])).text.toList := by
  obtain ⟨front, c, htext, hc⟩ := exists_last place hn
  simp [Text.dropBack, htext, hc]

theorem fileName?_ofLocation (hp : ∀ n ∈ place ++ [name], IsName n) :
    (ofLocation (place ++ [name])).fileName? = some name := by
  rw [fileName?, components_ofLocation hp, List.map_append, ← List.cons_append, List.map_singleton,
    List.getLast?_concat]

theorem fileName_ofLocation (hp : ∀ n ∈ place ++ [name], IsName n) :
    (ofLocation (place ++ [name])).fileName = name := by
  rw [fileName, fileName?_ofLocation hp, Option.getD_some]

theorem intercalate_slash (first : List Char) (rest : List (List Char)) :
    ['/'].intercalate (first :: rest) = first ++ rest.flatMap ('/' :: ·) := by
  induction rest generalizing first with
  | nil => simp
  | cons next rest ih => simp [ih]

theorem parent?_ofLocation (hp : ∀ n ∈ place ++ [name], IsName n) :
    (ofLocation (place ++ [name])).parent? = some (ofLocation place) := by
  have hs : (ofLocation (place ++ [name])).segments =
      [] :: place.map String.toList ++ [name.toList] := by
    rw [segments_ofLocation hp (by simp)]
    simp
  have hi : ∀ s ∈ place.map String.toList ++ [name.toList], isIdle s = false := by
    intro s hm
    rw [← List.map_singleton, ← List.map_append] at hm
    obtain ⟨n, hn, rfl⟩ := List.mem_map.1 hm
    exact (hp n hn).notIdle
  rw [parent?_of_segments hs hi]
  by_cases hne : place = []
  · subst hne
    rfl
  · rw [if_neg (by simpa using hne), intercalate_slash]
    simp [ofLocation, hne, List.flatMap_map, ← String.toList_inj]

end Path

namespace FileSystem

variable {fs fs' : FileSystem} {follow : Bool} {place : Location} {name : String} {found : Place}

/-- A directory that names alone lead to. -/
structure IsDirectoryAt (fs : FileSystem) (place : Location) : Prop where
  direct : fs.Direct place
  node : fs.node? place = some .directory

/-- What names alone lead to lies in a directory that they lead to. -/
theorem Direct.above (h : fs.Direct (place ++ [name])) : fs.IsDirectoryAt place :=
  ⟨⟨fun n hn => h.isName n (by simp [hn]), fun n hn => h.short n (by simp [hn]),
    fun front hf _ => h.onTheWay front (hf.trans (List.prefix_append _ _)) fun he => by
      have hlength : place.length + 1 ≤ place.length := by simpa [he] using hf.length_le
      omega⟩,
    h.onTheWay place (List.prefix_append _ _) (by simp)⟩

/-- What a directory lies in is a directory. -/
theorem IsDirectoryAt.above (h : fs.IsDirectoryAt (place ++ [name])) : fs.IsDirectoryAt place :=
  h.direct.above

theorem segments_child (h : fs.IsDirectoryAt place) (hn : Path.IsName name) :
    (Path.ofLocation (place ++ [name])).segments = [] :: (place.map String.toList ++ [name.toList]) := by
  rw [Path.segments_ofLocation _ (by simp), List.map_append]
  · rfl
  · intro n hm
    rcases List.mem_append.1 hm with hm | hm
    · exact h.direct.isName n hm
    · rwa [List.mem_singleton.1 hm]

/-- A name in a directory is looked for from the directory. -/
theorem walk_namesFromRoot_child {links : Nat} (h : fs.IsDirectoryAt place) (hn : Path.IsName name) :
    fs.walk follow links [] (fs.namesFromRoot (.ofLocation (place ++ [name]))) =
      fs.walk follow links place [name.toList] := by
  rw [namesFromRoot, if_pos (Path.isAbsolute_ofLocation _), segments_child h hn, walk, if_pos (by rfl),
    walk_through (by simpa using h.direct) (by simpa using h.node), List.nil_append]

theorem walk_child (h : fs.IsDirectoryAt place) (hn : Path.IsName name)
    (hl : fs.locate (.ofLocation (place ++ [name])) follow = .ok found) :
    fs.walk follow linkLimit place [name.toList] = .ok found := by
  rw [← walk_namesFromRoot_child h hn]
  exact walk_of_locate hl

theorem locate_child_free (h : fs.IsDirectoryAt place) (hn : Path.IsName name)
    (hfree : fs.node? (place ++ [name]) = none)
    (hl : fs.locate (.ofLocation (place ++ [name])) follow = .ok found) :
    found = .vacant place name false := by
  have hw := walk_child h hn hl
  rw [walk, if_neg (by simp [hn.notIdle]), if_neg hn.notParent, String.ofList_toList] at hw
  split at hw
  · cases hw
  · simpa [hfree] using hw.symm

theorem locate_child_taken (h : fs.IsDirectoryAt place) (hn : Path.IsName name) {node : Node}
    (htaken : fs.node? (place ++ [name]) = some node)
    (hlink : follow = false ∨ ∀ target, node ≠ .link target)
    (hl : fs.locate (.ofLocation (place ++ [name])) follow = .ok found) :
    found = .taken (place ++ [name]) := by
  have hw := walk_child h hn hl
  rw [walk, if_neg (by simp [hn.notIdle]), if_neg hn.notParent, String.ofList_toList] at hw
  split at hw
  · cases hw
  · cases node with
    | file content => simpa [htaken] using hw.symm
    | directory => simpa [htaken, walk] using hw.symm
    | link target =>
      rcases hlink with rfl | hlink
      · simpa [htaken] using hw.symm
      · exact absurd rfl (hlink target)

theorem locateName_child (hn : Path.IsName name) :
    fs.locateName (.ofLocation (place ++ [name])) = fs.locate (.ofLocation (place ++ [name])) false := by
  simp only [locateName, Path.dropBack_ofLocation hn]
  split
  · rfl
  · rw [String.ofList_toList]

/-! ## Changes -/

/-- A place in a directory. -/
structure IsPlace (fs : FileSystem) (place : Location) : Prop where
  parent : ∃ directory name, place = directory ++ [name] ∧ fs.node? directory = some .directory

theorem IsPlace.ne_nil (h : fs.IsPlace place) : place ≠ [] := by
  obtain ⟨directory, name, rfl, -⟩ := h.parent
  simp

theorem Stands.isPlace (h : fs.Stands found) (hne : found.location ≠ []) :
    fs.IsPlace found.location := by
  cases h with
  | @taken place hd _ =>
    rcases List.eq_nil_or_concat place with rfl | ⟨front, last, rfl⟩
    · exact absurd rfl hne
    · rw [List.concat_eq_append] at hd ⊢
      exact ⟨front, last, rfl, hd.onTheWay front (List.prefix_append _ _) (by simp)⟩
  | @vacant directory name _ _ hn => exact ⟨directory, name, rfl, hn⟩

/-- A file is written where none stood, or another. -/
structure PutsFile (fs : FileSystem) (place : Location) (content : Text.Bytes) (fs' : FileSystem) :
    Prop where
  isPlace : fs.IsPlace place
  before : fs.node? place = none ∨ ∃ old, fs.node? place = some (.file old)
  after : fs' = fs.set place (.file content)

/-- What a write that is not refused does. -/
theorem puts_of_write {p : Path} {content : Text.Bytes} (h : fs.write p content = .ok fs') :
    ∃ found, fs.locate p = .ok found ∧ fs.PutsFile found.location content fs' := by
  simp only [write] at h
  split at h
  · next place hl =>
    have hstands := stands_of_locate hl
    split at h
    · next old hnode =>
      have hne : place ≠ [] := fun he => by simp [he, node?_root] at hnode
      exact ⟨_, hl, hstands.isPlace hne, .inr ⟨old, hnode⟩, (Except.ok.inj h).symm⟩
    · cases h
  · next directory name slash hl =>
    have hstands := stands_of_locate hl
    split at h
    · cases h
    · refine ⟨_, hl, hstands.isPlace (by simp [Place.location]), .inl ?_, (Except.ok.inj h).symm⟩
      cases hstands
      assumption
  · cases h

/-- A directory is made where nothing stood. -/
structure PutsDirectory (fs : FileSystem) (place : Location) (fs' : FileSystem) : Prop where
  isPlace : fs.IsPlace place
  before : fs.node? place = none
  after : fs' = fs.set place .directory

theorem puts_of_makeDirectory {p : Path} (h : fs.makeDirectory p = .ok fs') :
    ∃ found, fs.locateName p = .ok found ∧ fs.PutsDirectory found.location fs' := by
  simp only [makeDirectory, bind, Except.bind] at h
  split at h
  · cases h
  · next found hl =>
    have hstands := stands_of_locate hl
    cases found with
    | taken place => cases h
    | vacant directory name slash =>
      refine ⟨_, hl, hstands.isPlace (by simp [Place.location]), ?_, (Except.ok.inj h).symm⟩
      cases hstands
      assumption

theorem PutsFile.isTree {content : Text.Bytes} (h : fs.PutsFile place content fs') (ht : fs.IsTree) :
    fs'.IsTree := by
  obtain ⟨directory, name, rfl, hd⟩ := h.isPlace.parent
  rw [h.after]
  refine ht.set hd (.inr fun hn => ?_)
  rcases h.before with hb | ⟨old, hb⟩ <;> simp [hb] at hn

theorem PutsDirectory.isTree (h : fs.PutsDirectory place fs') (ht : fs.IsTree) : fs'.IsTree := by
  obtain ⟨directory, name, rfl, hd⟩ := h.isPlace.parent
  rw [h.after]
  exact ht.set hd (.inl rfl)

theorem PutsFile.node? {content : Text.Bytes} (h : fs.PutsFile place content fs')
    (other : Location) :
    fs'.node? other = if other = place then some (.file content) else fs.node? other := by
  rw [h.after, node?_set _ _ _ _ h.isPlace.ne_nil]

theorem PutsDirectory.node? (h : fs.PutsDirectory place fs') (other : Location) :
    fs'.node? other = if other = place then some .directory else fs.node? other := by
  rw [h.after, node?_set _ _ _ _ h.isPlace.ne_nil]

theorem PutsDirectory.kept (h : fs.PutsDirectory place fs') : fs.Extends fs' :=
  h.after ▸ extends_set h.before

/-- A file written to the path of a name in a directory, where no link stands. -/
theorem puts_of_write_child {content : Text.Bytes} (h : fs.IsDirectoryAt place)
    (hn : Path.IsName name) (hlink : ∀ target, fs.node? (place ++ [name]) ≠ some (.link target))
    (hw : fs.write (.ofLocation (place ++ [name])) content = .ok fs') :
    fs.PutsFile (place ++ [name]) content fs' := by
  obtain ⟨found, hl, hputs⟩ := puts_of_write hw
  cases hnode : fs.node? (place ++ [name]) with
  | none =>
    obtain rfl := locate_child_free h hn hnode hl
    exact hputs
  | some node =>
    have hnot : ∀ target, node ≠ .link target := fun target he => hlink target (he ▸ hnode)
    obtain rfl := locate_child_taken h hn hnode (.inr hnot) hl
    exact hputs

theorem puts_of_makeDirectory_child (h : fs.IsDirectoryAt place) (hn : Path.IsName name)
    (hm : fs.makeDirectory (.ofLocation (place ++ [name])) = .ok fs') :
    fs.PutsDirectory (place ++ [name]) fs' := by
  obtain ⟨found, hl, hputs⟩ := puts_of_makeDirectory hm
  rw [locateName_child hn] at hl
  cases hnode : fs.node? (place ++ [name]) with
  | none =>
    obtain rfl := locate_child_free h hn hnode hl
    exact hputs
  | some node =>
    obtain rfl := locate_child_taken h hn hnode (.inl rfl) hl
    exact absurd hputs.before (by simp [Place.location, hnode])

/-- A location that is reached by names alone still is when no directory went. -/
theorem Direct.of_directories (h : fs.Direct place)
    (hd : ∀ other, fs.node? other = some .directory → fs'.node? other = some .directory) :
    fs'.Direct place :=
  ⟨h.isName, h.short, fun front hf hne => hd _ (h.onTheWay front hf hne)⟩

theorem IsDirectoryAt.of_directories (h : fs.IsDirectoryAt place)
    (hd : ∀ other, fs.node? other = some .directory → fs'.node? other = some .directory) :
    fs'.IsDirectoryAt place :=
  ⟨h.direct.of_directories hd, hd _ h.node⟩

theorem PutsFile.keeps_directories {content : Text.Bytes} (h : fs.PutsFile place content fs')
    {other : Location} (hd : fs.node? other = some .directory) :
    fs'.node? other = some .directory := by
  rw [h.node?, if_neg, hd]
  rintro rfl
  rcases h.before with hb | ⟨old, hb⟩ <;> simp [hb] at hd

/-- A directory that was made at the path of a name in a directory. -/
theorem directoryAt_of_makeDirectory (h : fs.IsDirectoryAt place) (hn : Path.IsName name)
    (hm : fs.makeDirectory (.ofLocation (place ++ [name])) = .ok fs') :
    fs'.IsDirectoryAt (place ++ [name]) := by
  have hputs := puts_of_makeDirectory_child h hn hm
  obtain ⟨found, hl, -⟩ := puts_of_makeDirectory hm
  rw [locateName_child hn] at hl
  obtain rfl := locate_child_free h hn hputs.before hl
  have hstands := stands_of_locate hl
  cases hstands with
  | vacant _ _ _ _ hs =>
    have hkept : fs'.IsDirectoryAt place := h.of_directories fun _ hd => hputs.kept.node hd
    exact ⟨hkept.direct.append hkept.node hn hs, by rw [hputs.node?, if_pos rfl]⟩

/-! ## Where a name is looked for -/

/-- Where no link stands on the way, a name is only looked for in a directory. -/
theorem directoryAt_of_walk {links : Nat} {directory rest : Location} {segment : List Char}
    (h : fs.IsDirectoryAt directory) (hn : ∀ n ∈ rest, Path.IsName n)
    (hlinks : ∀ front, front <+: rest → ∀ target, fs.node? (directory ++ front) ≠ some (.link target))
    (hs : segment ≠ [])
    (hw : fs.walk follow links directory (rest.map String.toList ++ [segment]) = .ok found) :
    fs.IsDirectoryAt (directory ++ rest) := by
  induction rest generalizing directory with
  | nil => simpa using h
  | cons name rest ih =>
    have hname := hn name (by simp)
    have hlink := hlinks [name] ⟨rest, rfl⟩
    rw [List.map_cons, List.cons_append, walk, if_neg (by simp [hname.notIdle]), if_neg hname.notParent,
      String.ofList_toList] at hw
    split at hw
    · cases hw
    · next hshort =>
      cases hnode : fs.node? (directory ++ [name]) with
      | none => simp [hnode, hs] at hw
      | some node =>
        cases node with
        | file content => simp [hnode] at hw
        | link target => exact absurd hnode (hlink target)
        | directory =>
          simp only [hnode] at hw
          have hstep : fs.IsDirectoryAt (directory ++ [name]) :=
            ⟨h.direct.append h.node hname (by omega), hnode⟩
          have hunlinked : ∀ front, front <+: rest → ∀ target,
              fs.node? (directory ++ [name] ++ front) ≠ some (.link target) := fun front hf target => by
            simpa using hlinks (name :: front) (List.cons_prefix_cons.2 ⟨rfl, hf⟩) target
          simpa using ih hstep (fun n hm => hn n (List.mem_cons_of_mem _ hm)) hunlinked hw

theorem directoryAt_of_locate (hplace : ∀ n ∈ place, Path.IsName n) (hn : Path.IsName name)
    (hlinks : ∀ front, front <+: place → ∀ target, fs.node? front ≠ some (.link target))
    (hl : fs.locate (.ofLocation (place ++ [name])) follow = .ok found) : fs.IsDirectoryAt place := by
  have hroot : fs.IsDirectoryAt [] := ⟨.root fs, node?_root fs⟩
  have hw : fs.walk follow linkLimit [] (place.map String.toList ++ [name.toList]) = .ok found := by
    refine locate_below hroot.direct hroot.node (Path.isAbsolute_ofLocation _) ?_ hl
    rw [Path.segments_ofLocation _ (by simp)]
    · simp
    · intro n hm
      rcases List.mem_append.1 hm with hm | hm
      · exact hplace n hm
      · rwa [List.mem_singleton.1 hm]
  simpa using directoryAt_of_walk hroot hplace (by simpa using hlinks) hn.ne_nil hw

/-- Only in a directory is a name looked for. -/
theorem directory_of_locate_child {node : Node} (h : fs.Direct place)
    (hnode : fs.node? place = some node) (hlink : ∀ target, node ≠ .link target)
    (hn : Path.IsName name) (hl : fs.locate (.ofLocation (place ++ [name])) follow = .ok found) :
    fs.IsDirectoryAt place := by
  refine directoryAt_of_locate h.isName hn (fun front hf target he => ?_) hl
  by_cases hsame : front = place
  · subst hsame
    exact hlink target (by simpa [hnode] using he)
  · simp [h.onTheWay front hf hsame] at he

/-! ## Free names -/

/-- A path that is refused by no walk. -/
def IsWalkable (p : Path) : Prop :=
  p.isEmpty = false ∧ p.text.toList.contains '\x00' = false ∧ p.text.utf8ByteSize ≤ pathLimit

instance (p : Path) : Decidable (IsWalkable p) := inferInstanceAs (Decidable (_ ∧ _ ∧ _))

/-- A location that names alone lead to is found under its path, unless that is refused. -/
theorem locate_of_direct {node : Node} (h : fs.Direct place) (hn : fs.node? place = some node)
    (hl : ∀ target, node ≠ .link target) (hp : IsWalkable (.ofLocation place)) :
    fs.locate (.ofLocation place) = .ok (.taken place) := by
  obtain ⟨hempty, hnul, hlong⟩ := hp
  rw [locate, if_neg (by simp [hempty]), if_neg (by rw [hnul]; simp), if_neg (by omega)]
  exact walk_ofLocation h hn hl

theorem canonicalize_of_direct {node : Node} (h : fs.Direct place) (hn : fs.node? place = some node)
    (hl : ∀ target, node ≠ .link target) (hp : IsWalkable (.ofLocation place)) :
    fs.canonicalize (.ofLocation place) = .ok (.ofLocation place) := by
  rw [canonicalize, find_eq_ok_iff.2 (locate_of_direct h hn hl hp)]
  rfl

theorem status_of_direct {node : Node} (h : fs.Direct place) (hn : fs.node? place = some node)
    (hl : ∀ target, node ≠ .link target) (hp : IsWalkable (.ofLocation place)) :
    fs.status (.ofLocation place) = .ok node :=
  status_eq_ok_iff.2 ⟨place, find_eq_ok_iff.2 (locate_of_direct h hn hl hp), hn⟩

/-- A link in a directory leads where the names of its target do. -/
theorem find_child_of_link {target : Location} {node : Node} (h : fs.IsDirectoryAt place)
    (hn : Path.IsName name) (hs : Text.utf8Size name.toList ≤ nameLimit)
    (hp : IsWalkable (.ofLocation (place ++ [name])))
    (hlink : fs.node? (place ++ [name]) = some (.link (Path.ofLocation target).text)) (hne : target ≠ [])
    (ht : fs.Direct target) (hnode : fs.node? target = some node) (hl : ∀ text, node ≠ .link text) :
    fs.find (.ofLocation (place ++ [name])) = .ok target := by
  obtain ⟨hempty, hnul, hlong⟩ := hp
  have hlimit : linkLimit = 39 + 1 := rfl
  have hstart : targetStart place (Path.ofLocation target).text = [] :=
    if_pos (Path.isAbsolute_ofLocation target)
  rw [find_eq_ok_iff, locate, if_neg (by simp [hempty]), if_neg (by rw [hnul]; simp), if_neg (by omega),
    walk_namesFromRoot_child h hn, hlimit, walk, if_neg (by simp [hn.notIdle]), if_neg hn.notParent,
    if_neg (by omega), String.ofList_toList]
  simp only [hlink, hstart, Path.segments_ofLocation ht.isName hne]
  rw [if_neg (by simp), List.append_nil, walk, if_pos (by rfl)]
  exact walk_direct ht hnode hl

theorem locate_child_of_free (h : fs.IsDirectoryAt place) (hn : Path.IsName name)
    (hs : Text.utf8Size name.toList ≤ nameLimit) (hp : IsWalkable (.ofLocation (place ++ [name])))
    (hfree : fs.node? (place ++ [name]) = none) :
    fs.locate (.ofLocation (place ++ [name])) follow = .ok (.vacant place name false) := by
  obtain ⟨hempty, hnul, hlong⟩ := hp
  rw [locate, if_neg (by simp [hempty]), if_neg (by rw [hnul]; simp), if_neg (by omega),
    walk_namesFromRoot_child h hn, walk, if_neg (by simp [hn.notIdle]), if_neg hn.notParent,
    if_neg (by omega), String.ofList_toList]
  simp [hfree]

theorem makeDirectory_child_of_free (h : fs.IsDirectoryAt place) (hn : Path.IsName name)
    (hs : Text.utf8Size name.toList ≤ nameLimit) (hp : IsWalkable (.ofLocation (place ++ [name])))
    (hfree : fs.node? (place ++ [name]) = none) :
    fs.makeDirectory (.ofLocation (place ++ [name])) = .ok (fs.set (place ++ [name]) .directory) := by
  simp [makeDirectory, locateName_child hn, locate_child_of_free h hn hs hp hfree, bind, Except.bind]

/-- Under a name that is free or that of a file, a file is written. -/
theorem write_child_of_fits (h : fs.IsDirectoryAt place) (hn : Path.IsName name)
    (hs : Text.utf8Size name.toList ≤ nameLimit) (hp : IsWalkable (.ofLocation (place ++ [name])))
    (hnode : fs.node? (place ++ [name]) = none ∨ ∃ old, fs.node? (place ++ [name]) = some (.file old))
    (content : Text.Bytes) :
    fs.write (.ofLocation (place ++ [name])) content =
      .ok (fs.set (place ++ [name]) (.file content)) := by
  rcases hnode with hfree | ⟨old, hold⟩
  · simp [write, locate_child_of_free h hn hs hp hfree]
  · have hdirect := h.direct.append h.node hn hs
    simp [write, locate_of_direct hdirect hold (by simp) hp, hold]

/-! ## Names that are too long -/

theorem locate_child_of_long (h : fs.IsDirectoryAt place) (hn : Path.IsName name)
    (hs : nameLimit < Text.utf8Size name.toList)
    (hp : IsWalkable (.ofLocation (place ++ [name]))) :
    fs.locate (.ofLocation (place ++ [name])) follow = .error .nameTooLong := by
  obtain ⟨hempty, hnul, hlong⟩ := hp
  rw [locate, if_neg (by simp [hempty]), if_neg (by rw [hnul]; simp), if_neg (by omega),
    walk_namesFromRoot_child h hn, walk, if_neg (by simp [hn.notIdle]), if_neg hn.notParent, if_pos hs]

theorem write_child_of_long (h : fs.IsDirectoryAt place) (hn : Path.IsName name)
    (hs : nameLimit < Text.utf8Size name.toList)
    (hp : IsWalkable (.ofLocation (place ++ [name]))) (content : Text.Bytes) :
    fs.write (.ofLocation (place ++ [name])) content = .error .nameTooLong := by
  obtain ⟨front, c, htext, hc⟩ := Path.exists_last place hn
  have hslash : endsInSlash (.ofLocation (place ++ [name])) = false := by
    simp [endsInSlash, htext, hc]
  simp [write, locate_child_of_long h hn hs hp, hasSlashAfterFile, hslash]

end FileSystem

end Galley
