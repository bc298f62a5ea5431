import Galley.Proofs.Dependency.Redirection
import Galley.Proofs.Workspace.Writing

/-! # Where scratch names end

A scratch name is longer than the name of the file, and it holds what that name holds. So a file that
can be found is not always one that can be handed to the compiler: its name may leave no room, and a
quote in it ends the path of a directive. -/

namespace Galley

/-- A name that a file can have. -/
structure LegalName (name : String) : Prop where
  ne : name.toList ≠ []
  noSlash : '/' ∉ name.toList
  noNul : '\x00' ∉ name.toList
  short : Text.utf8Size name.toList ≤ FileSystem.nameLimit

theorem legalName_iff {name : String} : LegalName name ↔ name.toList ≠ [] ∧ '/' ∉ name.toList ∧
    '\x00' ∉ name.toList ∧ Text.utf8Size name.toList ≤ FileSystem.nameLimit :=
  ⟨fun h => ⟨h.ne, h.noSlash, h.noNul, h.short⟩, fun ⟨hn, hs, hz, hl⟩ => ⟨hn, hs, hz, hl⟩⟩

instance (name : String) : Decidable (LegalName name) := decidable_of_iff _ legalName_iff.symm

/-- All names in a file system are names that files can have. -/
def FileSystem.IsLegal (fs : FileSystem) : Prop :=
  ∀ place node, fs.node? place = some node → ∀ name ∈ place, LegalName name

theorem FileSystem.isLegal_of_entries {fs : FileSystem}
    (h : ∀ e ∈ fs.entries, ∀ name ∈ e.1, LegalName name) : fs.IsLegal := by
  intro place node hn name hm
  rw [node?] at hn
  split at hn
  · next hroot =>
    rw [hroot] at hm
    cases hm
  · obtain ⟨front, back, he, -⟩ := List.lookup_eq_some_iff.1 hn
    exact h (place, node) (by simp [he]) name hm

namespace Typst.Import

/-- A directive with another path. -/
def withPath (d : Import) (path : List Char) : Import := { d with path := path }

/-- A directive with another path is read as such where it stood exactly when the path holds no
quote. -/
theorem read?_withPath_iff {text rest : List Char} {d : Import} (h : read? text = some (d, rest))
    {path : List Char} (hne : path ≠ []) :
    read? ((d.withPath path).text ++ rest) = some (d.withPath path, rest) ↔ '"' ∉ path := by
  obtain ⟨lead, old, gap, line, hparts, rfl⟩ := exists_parts_of_read? h
  have hmoved : (ofParts lead old gap line).withPath path = ofParts lead path gap line := rfl
  rw [hmoved]
  constructor
  · intro hr
    obtain ⟨lead', path', gap', line', hparts', he⟩ := exists_parts_of_read? hr
    have hpath : path = path' := congrArg Import.path he
    rw [hpath]
    exact hparts'.path
  · intro hq
    exact read?_of_parts { hparts with path_ne := hne, path := hq }

end Typst.Import

namespace Dependency

open Typst (Import)
open Workspace (Job)

variable {fs : FileSystem} {roots : Roots} {directory : Option Path} {path : String} {p : Path}

/-- The octets that a scratch name leaves to the name of the file. -/
def scratchRoom : Nat := FileSystem.nameLimit - scratchOverhead

example : scratchRoom = 213 := by decide

/-- The name of what an import means is one of the names in the file system. -/
theorem legalName_of_lookup? (hfs : fs.IsLegal) (h : lookup? fs roots directory path = some p) :
    LegalName p.fileName := by
  obtain ⟨place, content, hat⟩ := exists_isFileAt_of_lookup? h
  rcases List.eq_nil_or_concat place with rfl | ⟨front, name, rfl⟩
  · have hnode := hat.node
    rw [FileSystem.node?_root] at hnode
    cases hnode
  · rw [List.concat_eq_append] at hat
    rw [hat.path, Path.fileName_ofLocation hat.direct.isName]
    exact hfs _ _ hat.node name (by simp)

theorem utf8Size_scratchName_le_iff : Text.utf8Size (scratchName p).toList ≤ FileSystem.nameLimit ↔
    Text.utf8Size p.fileName.toList ≤ scratchRoom := by
  have hfits : scratchOverhead ≤ FileSystem.nameLimit := by decide
  rw [utf8Size_scratchName, scratchRoom]
  omega

/-- Of all that a name must be, a scratch name can only fail to be short. -/
theorem legalName_scratchName_iff (h : LegalName p.fileName) :
    LegalName (scratchName p) ↔ Text.utf8Size p.fileName.toList ≤ scratchRoom := by
  have hdigits : '\x00' ∉ Text.Hex.encode (pathDigest p) := Text.Hex.not_mem_encode (by decide) _
  have hname := isName_scratchName p
  refine ⟨fun hs => utf8Size_scratchName_le_iff.1 hs.short,
    fun hs => ⟨hname.ne_nil, hname.noSlash, ?_, utf8Size_scratchName_le_iff.2 hs⟩⟩
  simp [toList_scratchName, hdigits, h.noNul]

theorem quote_mem_scratchName_iff : '"' ∈ (scratchName p).toList ↔ '"' ∈ p.fileName.toList := by
  have hdigits : '"' ∉ Text.Hex.encode (pathDigest p) := Text.Hex.not_mem_encode (by decide) _
  simp [toList_scratchName, hdigits]

/-- Into a job, a file is written under its scratch name exactly when that is short enough. -/
theorem writeDependency_scratchName {m m' : Machine} {w : Workspace} {job : Job} {place : Location}
    {content : Text.Bytes} {r : Except Failure Job} (h : job.Holds w place m.files)
    (hp : FileSystem.IsWalkable (.ofLocation (place ++ [scratchName p])))
    (hw : (job.writeDependency (scratchName p) content).Ends m r m') :
    (Text.utf8Size (scratchName p).toList ≤ FileSystem.nameLimit → ∃ job', r = .ok job') ∧
      (FileSystem.nameLimit < Text.utf8Size (scratchName p).toList →
        r = .error (.scratchFile (.ofLocation (place ++ [scratchName p]))
          OsError.nameTooLong.message)) := by
  have hn := isName_scratchName p
  have hpath : job.directory.join (scratchName p) = .ofLocation (place ++ [scratchName p]) := by
    rw [h.directory, Path.join_ofLocation h.directoryAt.direct.isName hn]
  simp only [Job.writeDependency, hpath] at hw
  constructor
  · intro hs
    have hnode : m.files.node? (place ++ [scratchName p]) = none ∨
        ∃ old, m.files.node? (place ++ [scratchName p]) = some (.file old) := by
      cases hnode : m.files.node? (place ++ [scratchName p]) with
      | none => exact .inl rfl
      | some node =>
        obtain ⟨old, rfl⟩ := h.files _ _ hnode
        exact .inr ⟨old, rfl⟩
    rcases Workspace.recorded_write_ends hw with ⟨e, hwrite, -⟩ | ⟨_, -, -, -, rfl⟩
    · cases Workspace.write_of_fits h.directoryAt hn hs hp hnode hwrite
    · exact ⟨_, rfl⟩
  · intro hs
    rcases Workspace.recorded_write_ends hw with ⟨e, hwrite, rfl⟩ | ⟨_, hwrite, -, -, -⟩
    · cases Workspace.write_of_long h.directoryAt hn hs hp hwrite
      rfl
    · cases Workspace.write_of_long h.directoryAt hn hs hp hwrite

/-- In a file system with names that files can have, what an import means is written under its scratch
name exactly when the name of the file leaves room for that. The import that is redirected there imports
the scratch name exactly when the name of the file holds no quote. -/
theorem scratchName_serves_iff (hfs : fs.IsLegal) (h : lookup? fs roots directory path = some p) :
    (LegalName (scratchName p) ↔ Text.utf8Size p.fileName.toList ≤ scratchRoom) ∧
    (∀ (w : Workspace) (job : Job) (place : Location) (m m' : Machine) (content : Text.Bytes)
      (r : Except Failure Job), job.Holds w place m.files →
      FileSystem.IsWalkable (.ofLocation (place ++ [scratchName p])) →
      (job.writeDependency (scratchName p) content).Ends m r m' →
      (Text.utf8Size p.fileName.toList ≤ scratchRoom → ∃ job', r = .ok job') ∧
        (scratchRoom < Text.utf8Size p.fileName.toList →
          r = .error (.scratchFile (.ofLocation (place ++ [scratchName p]))
            OsError.nameTooLong.message))) ∧
    (∀ (text rest : List Char) (d : Import), Import.read? text = some (d, rest) →
      (Import.read? ((d.withPath (scratchName p).toList).text ++ rest) =
        some (d.withPath (scratchName p).toList, rest) ↔ '"' ∉ p.fileName.toList)) := by
  have hname := legalName_of_lookup? hfs h
  refine ⟨legalName_scratchName_iff hname, fun w job place m m' content r hj hp hw => ?_,
    fun text rest d hr => ?_⟩
  · obtain ⟨hshort, hlong⟩ := writeDependency_scratchName hj hp hw
    refine ⟨fun hs => hshort (utf8Size_scratchName_le_iff.2 hs), fun hs => hlong ?_⟩
    rw [← Nat.not_le, utf8Size_scratchName_le_iff, Nat.not_le]
    exact hs
  · rw [Import.read?_withPath_iff hr (isName_scratchName p).ne_nil, quote_mem_scratchName_iff]

/-- A file with a quote in its name, a link that leads to it and the directory of a job. -/
def quoted : FileSystem where
  entries := [(["t"], .directory), (["t", "a.typ"], .link "b\".typ"), (["t", "b\".typ"], .file []),
    (["j"], .directory)]
  current := []
  distinct := by decide

theorem locate_quoted : quoted.locate ⟨"/t/a.typ"⟩ = .ok (.taken ["t", "b\".typ"]) := by
  have hnames : quoted.namesFromRoot ⟨"/t/a.typ"⟩ = [[], ['t'], ['a', '.', 't', 'y', 'p']] := by decide
  have hsegments : (⟨"b\".typ"⟩ : Path).segments = [['b', '"', '.', 't', 'y', 'p']] := by decide
  have hdirectory : quoted.node? ["t"] = some .directory := rfl
  have hlink : quoted.node? ["t", "a.typ"] = some (.link "b\".typ") := rfl
  have hfile : quoted.node? ["t", "b\".typ"] = some (.file []) := rfl
  have hfirst : String.ofList ['t'] = "t" := by decide
  have hsecond : String.ofList ['a', '.', 't', 'y', 'p'] = "a.typ" := by decide
  have hlast : String.ofList ['b', '"', '.', 't', 'y', 'p'] = "b\".typ" := by decide
  have hlimit : FileSystem.linkLimit = 39 + 1 := rfl
  have hstart : FileSystem.targetStart ["t"] "b\".typ" = ["t"] := by decide
  rw [FileSystem.locate, if_neg (by decide), if_neg (by decide), if_neg (by decide), hnames, hlimit,
    FileSystem.walk, if_pos (by decide), FileSystem.walk, if_neg (by decide), if_neg (by decide),
    if_neg (by decide)]
  simp only [hfirst, List.nil_append, hdirectory]
  rw [FileSystem.walk, if_neg (by decide), if_neg (by decide), if_neg (by decide)]
  simp only [hsecond, List.cons_append, List.nil_append, hlink, hstart, hsegments, List.isEmpty_nil,
    Bool.not_true, Bool.and_false, Bool.false_eq_true, if_false]
  rw [FileSystem.walk, if_neg (by decide), if_neg (by decide), if_neg (by decide)]
  simp only [hlast, List.cons_append, List.nil_append, hfile]
  rfl

theorem directoryAt_quoted (name : String) (h : name = "t" ∨ name = "j") :
    quoted.IsDirectoryAt [name] := by
  rcases h with rfl | rfl
  · exact ⟨(FileSystem.Direct.root _).append rfl (by decide) (by decide), rfl⟩
  · exact ⟨(FileSystem.Direct.root _).append rfl (by decide) (by decide), rfl⟩

theorem lookup?_quoted : lookup? quoted ⟨⟨"/t"⟩, ⟨"/t"⟩⟩ (some ⟨"/t"⟩) "a.typ" =
    some ⟨"/t/b\".typ"⟩ := by
  have hcandidate : Lookup.candidate ⟨⟨"/t"⟩, ⟨"/t"⟩⟩ (some ⟨"/t"⟩) "a.typ" = ⟨"/t/a.typ"⟩ := by decide
  have hcanonical : quoted.canonicalize ⟨"/t/a.typ"⟩ = .ok ⟨"/t/b\".typ"⟩ := by
    rw [FileSystem.canonicalize, FileSystem.find_eq_ok_iff.2 locate_quoted]
    rfl
  have hdirect : quoted.Direct ["t", "b\".typ"] :=
    (directoryAt_quoted "t" (.inl rfl)).direct.append rfl (by decide) (by decide)
  have hnode : quoted.node? ["t", "b\".typ"] = some (.file []) := rfl
  have hstatus : quoted.status ⟨"/t/b\".typ"⟩ = .ok (.file []) :=
    FileSystem.status_of_direct hdirect hnode (by simp) (by decide)
  have hfile : quoted.isFile ⟨"/t/b\".typ"⟩ = true := by rw [FileSystem.isFile, hstatus]
  have hprotected : (⟨"/t/b\".typ"⟩ : Path).isProtected = false := by decide
  rw [lookup?, Lookup.find, if_neg (by decide), hcandidate]
  simp only [hcanonical, hprotected, hfile]
  rfl

def quotedMachine : Machine where
  files := quoted
  environment := ⟨[]⟩
  programs := fun _ fs => (.exited (some 0) [] [], fs)
  names := fun _ => "n"
  clock := fun _ => "0"

def quotedJob : Job where
  workspace := ⟨⟨"/"⟩, none⟩
  directory := ⟨"/j"⟩

theorem holds_quotedJob : quotedJob.Holds ⟨⟨"/"⟩, none⟩ ["j"] quoted := by
  refine ⟨rfl, rfl, by simp [Job.tracked, quotedJob], directoryAt_quoted "j" (.inr rfl),
    fun name node hn => ?_⟩
  have hnone : quoted.node? (["j"] ++ [name]) = none := rfl
  cases hn.symm.trans hnone

/-- The import `a.typ` leads to a file with a quote in its name. That file is written into a job, but the
redirected import is no import of it. -/
theorem scratchName_serves_quoted :
    (∃ job' m', (quotedJob.writeDependency (scratchName ⟨"/t/b\".typ"⟩) []).Ends quotedMachine
      (.ok job') m') ∧
    ∃ d, Import.read? "#import \"a.typ\": x".toList = some (d, []) ∧
      Import.read? ((d.withPath (scratchName ⟨"/t/b\".typ"⟩).toList).text ++ []) ≠
        some (d.withPath (scratchName ⟨"/t/b\".typ"⟩).toList, []) := by
  have hlegal : quoted.IsLegal := FileSystem.isLegal_of_entries (by decide)
  obtain ⟨-, hwrite, hread⟩ := scratchName_serves_iff hlegal lookup?_quoted
  constructor
  · obtain ⟨r, m', h⟩ := Attempt.exists_ends
      (quotedJob.writeDependency (scratchName ⟨"/t/b\".typ"⟩) []) quotedMachine
    obtain ⟨job', rfl⟩ := (hwrite _ _ _ _ _ _ _ holds_quotedJob (by decide +kernel) h).1 (by decide)
    exact ⟨job', m', h⟩
  · have hd : Import.read? "#import \"a.typ\": x".toList =
        some (.ofParts [' '] ['a', '.', 't', 'y', 'p'] [] [' ', 'x'], []) := by decide
    exact ⟨_, hd, fun h => (hread _ _ _ hd).1 h (by decide)⟩

end Dependency

end Galley
