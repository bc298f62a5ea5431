import Galley.Proofs.Dependency.Protection
import Galley.Proofs.FileSystem.Denotation
import Galley.Proofs.FileSystem.Ways

/-! # One key for a file

An import comes to the path of the location that it denotes, so imports of one file come to one path however
they are written. That path goes through directories only, and its name, looked up in its directory, comes to
it again. -/

namespace Galley.Dependency

open FileSystem (IsWalkable)

variable {fs : FileSystem} {roots : Roots} {directory : Option Path} {path : String} {p : Path}
  {place : Location} {content : Text.Bytes}

/-- An import comes to the path of what its candidate leads to, when that is an unprotected file. -/
theorem lookup?_of_find (hpath : path.isEmpty = false ∧ (⟨path⟩ : Path).isAbsolute = false)
    (hf : fs.find (Lookup.candidate roots directory path) = .ok place)
    (hfile : fs.node? place = some (.file content)) (hw : IsWalkable (.ofLocation place))
    (hp : (Path.ofLocation place).isProtected = false) :
    lookup? fs roots directory path = some (.ofLocation place) := by
  refine lookup?_eq_some_iff.2 ⟨hpath, ?_, hp, ?_⟩
  · rw [FileSystem.canonicalize, hf]
    rfl
  · rw [FileSystem.isFile, FileSystem.status_of_direct (FileSystem.direct_of_find hf).1 hfile (by simp) hw]

/-- What an import comes to stands where its candidate leads. -/
theorem isFileAt_of_lookup? (h : lookup? fs roots directory path = some p) :
    ∃ place content, fs.find (Lookup.candidate roots directory path) = .ok place ∧
      fs.IsFileAt p place content ∧ p.isProtected = false := by
  obtain ⟨-, hc, hp, hfile⟩ := lookup?_eq_some_iff.1 h
  obtain ⟨other, content, hat⟩ := FileSystem.exists_isFileAt hc hfile
  cases hf : fs.find (Lookup.candidate roots directory path) with
  | error e =>
    rw [FileSystem.canonicalize, hf] at hc
    cases hc
  | ok place =>
    have hpath : Path.ofLocation place = p := by
      rw [FileSystem.canonicalize, hf] at hc
      exact Except.ok.inj hc
    have hdirect := (FileSystem.direct_of_find hf).1
    obtain rfl := (Path.ofLocation_inj hdirect.isName hat.direct.isName).1 (hpath.trans hat.path)
    exact ⟨place, content, rfl, hat, hp⟩

/-- A name does not begin as a package does, and is seen from where it is looked up. -/
theorem candidate_name {front : Location} {name : String} (hf : ∀ n ∈ front, Path.IsName n)
    (hn : Path.IsName name) :
    Lookup.candidate roots (some (.ofLocation front)) name = .ofLocation (front ++ [name]) := by
  have hpackage : ¬ Text.startsWith packageStart name.toList := by
    intro hs
    obtain ⟨rest, hr⟩ := Option.isSome_iff_exists.1 hs
    apply hn.noSlash
    rw [Text.dropStart?_eq_some_iff.1 hr]
    exact List.mem_append_left _ (by decide)
  have hempty : (Path.ofLocation front).isEmpty = false := by
    cases front <;> simp [Path.isEmpty, Path.ofLocation]
  rw [Lookup.candidate, if_neg hpackage]
  simp [Option.filter, hempty, Path.join_ofLocation hf hn]

/-- An unprotected file stands at the location that a path spells out, with no link on the way. Under the last
name, an import from the directory before it comes to the path. -/
structure IsKey (fs : FileSystem) (p : Path) (place : Location) (content : Text.Bytes) : Prop where
  path : p = .ofLocation place
  isAbsolute : p.isAbsolute = true
  components : p.components = .root :: place.map .normal
  node : fs.node? place = some (.file content)
  noLink : ∀ front, front <+: place → ∀ target, fs.node? front ≠ some (.link target)
  read : fs.read p = .ok content
  unprotected : p.isProtected = false
  again : ∃ parent name, p.parent? = some parent ∧ p.fileName? = some name ∧
    ∀ roots, lookup? fs roots (some parent) name = some p

theorem isKey_of_isFileAt (h : fs.IsFileAt p place content) (hp : p.isProtected = false) :
    IsKey fs p place content := by
  obtain ⟨rfl, hdirect, hnode, hread⟩ := h
  have hwalkable : IsWalkable (.ofLocation place) := by
    obtain ⟨_, hf, -⟩ := FileSystem.status_eq_ok_iff.1 (FileSystem.read_eq_ok_iff.1 hread)
    exact FileSystem.isWalkable_of_locate (FileSystem.find_eq_ok_iff.1 hf)
  refine ⟨rfl, Path.isAbsolute_ofLocation place, Path.components_ofLocation hdirect.isName, hnode, ?_, hread,
    hp, ?_⟩
  · intro front hf target hl
    by_cases he : front = place
    · rw [he, hnode] at hl
      cases hl
    · rw [hdirect.onTheWay front hf he] at hl
      cases hl
  · rcases List.eq_nil_or_concat place with rfl | ⟨front, name, rfl⟩
    · cases (FileSystem.node?_root fs).symm.trans hnode
    · rw [List.concat_eq_append] at *
      have hname : Path.IsName name := hdirect.isName name (by simp)
      refine ⟨_, name, Path.parent?_ofLocation hdirect.isName, Path.fileName?_ofLocation hdirect.isName, ?_⟩
      intro roots
      refine lookup?_of_find ⟨?_, ?_⟩ ?_ hnode hwalkable hp
      · rw [Bool.eq_false_iff, Ne, String.isEmpty_iff, ← String.toList_eq_nil_iff]
        exact hname.ne_nil
      · rw [Path.isAbsolute, beq_eq_false_iff_ne]
        exact fun he => hname.noSlash (List.mem_of_head? he)
      · rw [candidate_name (fun n hn => hdirect.isName n (List.mem_append_left _ hn)) hname]
        exact FileSystem.find_eq_ok_iff.2 (FileSystem.locate_of_direct hdirect hnode (by simp) hwalkable)

/-- An import that comes to a path comes to the key of the file that its candidate denotes. Two of them come to
one path exactly when their candidates denote one location. -/
theorem imports_have_one_key (fs : FileSystem) :
    (∀ roots directory path p, lookup? fs roots directory path = some p →
      ∃ place content, IsKey fs p place content ∧
        fs.PathDenotes (Lookup.candidate roots directory path) place) ∧
    ∀ roots directory path p place roots' directory' path' p' place',
      lookup? fs roots directory path = some p → lookup? fs roots' directory' path' = some p' →
      fs.PathDenotes (Lookup.candidate roots directory path) place →
      fs.PathDenotes (Lookup.candidate roots' directory' path') place' → (p = p' ↔ place = place') := by
  constructor
  · intro roots directory path p h
    obtain ⟨place, content, hf, hat, hp⟩ := isFileAt_of_lookup? h
    exact ⟨place, content, isKey_of_isFileAt hat hp, FileSystem.pathDenotes_of_find hf⟩
  · intro roots directory path p place roots' directory' path' p' place' h h' hd hd'
    obtain ⟨found, content, hf, hat, -⟩ := isFileAt_of_lookup? h
    obtain ⟨found', content', hf', hat', -⟩ := isFileAt_of_lookup? h'
    obtain rfl := (FileSystem.pathDenotes_of_find hf).unique hd
    obtain rfl := (FileSystem.pathDenotes_of_find hf').unique hd'
    rw [hat.path, hat'.path]
    exact Path.ofLocation_inj hat.direct.isName hat'.direct.isName

/-- A directory of packages, and links to files and directories. -/
def linked : FileSystem where
  entries := [(["t"], .directory), (["t", "s"], .directory), (["t", "s", "x"], .file []),
    (["t", "l"], .link "s"), (["t", "resources"], .directory), (["t", "resources", "typst"], .directory),
    (["t", "resources", "typst", "z"], .link "../.././l//x")]
  current := ["t"]
  distinct := by decide

theorem find_linked (p : Path) (hp : p = ⟨"resources/typst/z"⟩ ∨ p = ⟨"/t/s/.././l//x"⟩) :
    linked.find p = .ok ["t", "s", "x"] := by
  have ht : linked.node? ["t"] = some .directory := rfl
  have hs : linked.node? ["t", "s"] = some .directory := rfl
  have hx : linked.node? ["t", "s", "x"] = some (.file []) := rfl
  have hl : linked.node? ["t", "l"] = some (.link "s") := rfl
  have hr : linked.node? ["t", "resources"] = some .directory := rfl
  have hy : linked.node? ["t", "resources", "typst"] = some .directory := rfl
  have hz : linked.node? ["t", "resources", "typst", "z"] = some (.link "../.././l//x") := rfl
  have hlink : (⟨"../.././l//x"⟩ : Path).segments = [['.', '.'], ['.', '.'], ['.'], ['l'], [], ['x']] := by
    decide
  have hone : (⟨"s"⟩ : Path).segments = [['s']] := by decide
  have hn : linked.namesFromRoot ⟨"resources/typst/z"⟩ =
      [[], ['t'], "resources".toList, "typst".toList, ['z']] := by decide
  have hn' : linked.namesFromRoot ⟨"/t/s/.././l//x"⟩ =
      [[], ['t'], ['s'], ['.', '.'], ['.'], ['l'], [], ['x']] := by decide
  rw [FileSystem.find_eq_ok_iff]
  rcases hp with rfl | rfl
  · rw [FileSystem.locate_of_isWalkable (by decide), hn]
    simp +decide [FileSystem.walk, FileSystem.linkLimit, FileSystem.targetStart, ht, hs, hx, hl, hr, hy, hz,
      hlink, hone]
  · rw [FileSystem.locate_of_isWalkable (by decide), hn']
    simp +decide [FileSystem.walk, FileSystem.linkLimit, FileSystem.targetStart, ht, hs, hx, hl, hone]

/-- One file is imported as a package, by a path through links, and by its own name. -/
theorem imports_have_one_key_linked :
    lookup? linked ⟨⟨""⟩, ⟨"/t"⟩⟩ none "resources/typst/z" =
        lookup? linked ⟨⟨""⟩, ⟨"/t"⟩⟩ (some ⟨"/t/s"⟩) ".././l//x" ∧
      ∃ place content, IsKey linked (.ofLocation ["t", "s", "x"]) place content := by
  have hfile : linked.node? ["t", "s", "x"] = some (.file []) := rfl
  have hfirst : linked.find (Lookup.candidate ⟨⟨""⟩, ⟨"/t"⟩⟩ none "resources/typst/z") =
      .ok ["t", "s", "x"] := find_linked _ (.inl (by decide))
  have hsecond : linked.find (Lookup.candidate ⟨⟨""⟩, ⟨"/t"⟩⟩ (some ⟨"/t/s"⟩) ".././l//x") =
      .ok ["t", "s", "x"] := find_linked _ (.inr (by decide))
  have h := lookup?_of_find (by decide) hfirst hfile (by decide) (by decide)
  have h' := lookup?_of_find (by decide) hsecond hfile (by decide) (by decide)
  obtain ⟨hkey, hone⟩ := imports_have_one_key linked
  obtain ⟨place, content, hk, -⟩ := hkey _ _ _ _ h
  have hsame := (hone _ _ _ _ _ _ _ _ _ _ h h' (FileSystem.pathDenotes_of_find hfirst)
    (FileSystem.pathDenotes_of_find hsecond)).2 rfl
  exact ⟨h.trans ((congrArg some hsame).trans h'.symm), place, content, hk⟩

end Galley.Dependency
