import Galley.Proofs.FileSystem.Ways
import Galley.Proofs.Text.Span
import Galley.Proofs.Workspace.Dropping

/-! # The names of copies

A copy is named after the time, after what the file was for and after what it was called. All times are written
with as many characters, so the name tells the three apart. A file of that name holds what was copied there last,
when the name is not too long to be written. -/

namespace Galley.Workspace

/-- How many characters a time has: those of a date, of the time of day and of thousandths of a second, and two
signs between them. -/
def timeLength : Nat := 8 + 1 + 6 + 1 + 3

/-- A time as it stands in the name of a copy. -/
structure IsTime (time : String) : Prop where
  length : time.toList.length = timeLength
  chars : ∀ c ∈ time.toList, c.isDigit ∨ c = '_'

theorem isTime_iff {time : String} : IsTime time ↔
    time.toList.length = timeLength ∧ (time.toList.all fun c => c.isDigit || c == '_') = true := by
  rw [List.all_eq_true]
  constructor
  · exact fun h => ⟨h.length, fun c hc => by simpa using h.chars c hc⟩
  · exact fun ⟨hl, hc⟩ => ⟨hl, fun c hm => by simpa using hc c hm⟩

instance (time : String) : Decidable (IsTime time) := decidable_of_iff _ isTime_iff.symm

def copyName (time : String) (role : Role) (file : String) : String :=
  time ++ "_" ++ role.name ++ "_" ++ file

/-- The names that copies get. -/
def NamesCopy (name : String) : Prop :=
  ∃ time role file, IsTime time ∧ '/' ∉ file.toList ∧ name = copyName time role file

variable {time time' file file' : String} {role role' : Role}

theorem copyPath_eq (debugDirectory : Path) (time : String) (role : Role) (p : Path) :
    copyPath debugDirectory time role p = debugDirectory.join (copyName time role p.fileName) := rfl

theorem IsTime.noSlash (h : IsTime time) : '/' ∉ time.toList := fun hm => by
  rcases h.chars _ hm with hd | hu
  · exact absurd hd (by decide)
  · exact absurd hu (by decide)

theorem NamesCopy.isName {name : String} (h : NamesCopy name) : Path.IsName name := by
  obtain ⟨time, role, file, ht, hf, rfl⟩ := h
  exact isName_copy ht.noSlash hf role

theorem Role.name_injective (h : role.name = role'.name) : role = role' := by
  cases role <;> cases role' <;> first | rfl | exact absurd h (by decide)

/-- The name of a copy tells the time, the role and the name of the file apart. -/
theorem copyName_inj (ht : IsTime time) (ht' : IsTime time') :
    copyName time role file = copyName time' role' file' ↔ time = time' ∧ role = role' ∧ file = file' := by
  have hsplit : ∀ t (r : Role) f, (copyName t r f).toList =
      t.toList ++ '_' :: (r.name.toList ++ '_' :: f.toList) := by simp [copyName]
  have hrole : ∀ r : Role, '_' ∉ r.name.toList := fun r => by cases r <;> decide
  constructor
  · intro h
    have htext := congrArg String.toList h
    rw [hsplit, hsplit] at htext
    obtain ⟨htime, hrest⟩ := List.append_inj htext (ht.length.trans ht'.length.symm)
    obtain ⟨hr, hf⟩ := Text.append_cons_inj (hrole role) (hrole role') (List.cons.inj hrest).2
    exact ⟨String.toList_inj.1 htime, Role.name_injective (String.toList_inj.1 hr.symm),
      String.toList_inj.1 hf⟩
  · rintro ⟨rfl, rfl, rfl⟩
    rfl

/-- No job has a directory with the name of a copy. -/
theorem NamesCopy.ne_jobStart {name : String} (h : NamesCopy name) (other : String) : jobStart ++ other ≠ name := by
  obtain ⟨time, role, file, ht, -, rfl⟩ := h
  intro he
  obtain ⟨c, rest, htime⟩ : ∃ c rest, time.toList = c :: rest :=
    List.exists_cons_of_length_pos (by rw [ht.length]; decide)
  have hc := ht.chars c (by simp [htime])
  have hhead : (jobStart ++ other).toList.head? = some c := by simp [he, copyName, htime]
  have hstart : (jobStart ++ other).toList.head? = some 't' := by simp [jobStart]
  obtain rfl : 't' = c := Option.some.inj (hstart.symm.trans hhead)
  exact absurd hc (by decide)

/-! ## What was kept -/

/-- A file at the time at which it is copied. -/
structure Kept where
  time : String
  role : Role
  file : String
  content : Text.Bytes
deriving DecidableEq, Repr

namespace Kept

/-- The name of the copy. -/
def name (k : Kept) : String := copyName k.time k.role k.file

/-- The time is a time and the file has the name of a file. -/
structure IsLegal (k : Kept) : Prop where
  isTime : IsTime k.time
  noSlash : '/' ∉ k.file.toList

theorem IsLegal.namesCopy {k : Kept} (h : k.IsLegal) : NamesCopy k.name :=
  ⟨k.time, k.role, k.file, h.isTime, h.noSlash, rfl⟩

/-- Of a file and those that are copied after it, the last that gets the same name. -/
def survivor (k : Kept) (after : List Kept) : Kept :=
  ((after.filter fun k' => k'.name = k.name).getLast?).getD k

end Kept

/-- What was copied last under a name, if anything can be. -/
def copied? (debug : Path) (kept : List Kept) (name : String) : Option Text.Bytes :=
  if FileSystem.HasRoom debug name then
    ((kept.filter fun k => k.name = name).getLast?).map Kept.content
  else none

variable {debug : Path} {kept kept' front back : List Kept} {k : Kept}

theorem Kept.survivor_of_forall_ne (h : ∀ k' ∈ back, k'.name ≠ k.name) : k.survivor back = k := by
  have hnone : back.filter (fun k' => k'.name = k.name) = [] := List.filter_eq_nil_iff.2 (by simpa using h)
  rw [survivor, hnone]
  rfl

theorem copied?_nil (debug : Path) (name : String) : copied? debug [] name = none := by
  simp [copied?]

theorem copied?_singleton (debug : Path) (k : Kept) (name : String) :
    copied? debug [k] name =
      if k.name = name ∧ FileSystem.HasRoom debug name then some k.content else none := by
  by_cases hn : k.name = name <;> simp [copied?, hn]

theorem copied?_of_not_room {name : String} (h : ¬FileSystem.HasRoom debug name) :
    copied? debug kept name = none := if_neg h

theorem copied?_append (debug : Path) (kept kept' : List Kept) (name : String) :
    copied? debug (kept ++ kept') name = (copied? debug kept' name).or (copied? debug kept name) := by
  simp only [copied?]
  split
  · rw [List.filter_append, List.getLast?_append]
    cases (kept'.filter fun k => k.name = name).getLast? <;> simp
  · rfl

theorem copied?_of_room (h : FileSystem.HasRoom debug k.name) :
    copied? debug (front ++ k :: back) k.name = some (k.survivor back).content := by
  rw [copied?, if_pos h, List.filter_append, List.filter_cons_of_pos (by simp), List.getLast?_append,
    List.getLast?_cons, Kept.survivor]
  rfl

/-- The files among some paths, each as it stands when it is copied; for each, the clock is read once. -/
def keptFrom (fs : FileSystem) (clock : Nat → String) (role : Role) : (looked : Nat) → List Path → List Kept
  | _, [] => []
  | looked, p :: rest =>
    match fs.read p with
    | .ok content => ⟨clock looked, role, p.fileName, content⟩ :: keptFrom fs clock role (looked + 1) rest
    | .error _ => keptFrom fs clock role looked rest

variable {fs fs' : FileSystem} {clock : Nat → String} {looked : Nat} {p : Path} {paths : List Path}

/-- Each file among the paths is kept, as it is. -/
theorem exists_mem_keptFrom {content : Text.Bytes} (hp : p ∈ paths) (hr : fs.read p = .ok content) :
    ∃ n, ⟨clock n, role, p.fileName, content⟩ ∈ keptFrom fs clock role looked paths := by
  induction paths generalizing looked with
  | nil => cases hp
  | cons q paths ih =>
    rcases List.mem_cons.1 hp with rfl | hp
    · exact ⟨looked, by simp [keptFrom, hr]⟩
    · rw [keptFrom]
      split
      · obtain ⟨n, hn⟩ : ∃ n, ⟨clock n, role, p.fileName, content⟩ ∈
          keptFrom fs clock role (looked + 1) paths := ih hp
        exact ⟨n, List.mem_cons_of_mem _ hn⟩
      · exact ih hp

/-- Nothing else is kept. -/
theorem of_mem_keptFrom (h : k ∈ keptFrom fs clock role looked paths) :
    k.role = role ∧ (∃ n, k.time = clock n) ∧ ∃ p ∈ paths, k.file = p.fileName ∧ fs.read p = .ok k.content := by
  induction paths generalizing looked with
  | nil => cases h
  | cons q paths ih =>
    have hrest : ∀ {looked}, k ∈ keptFrom fs clock role looked paths → k.role = role ∧
        (∃ n, k.time = clock n) ∧ ∃ p ∈ q :: paths, k.file = p.fileName ∧ fs.read p = .ok k.content := by
      intro looked h
      obtain ⟨hrole, htime, p, hp, hfile⟩ := ih h
      exact ⟨hrole, htime, p, List.mem_cons_of_mem _ hp, hfile⟩
    rw [keptFrom] at h
    split at h
    · next content hread =>
      rcases List.mem_cons.1 h with rfl | h
      · exact ⟨rfl, ⟨looked, rfl⟩, q, by simp, rfl, hread⟩
      · exact hrest h
    · exact hrest h

theorem isLegal_of_mem_keptFrom (hc : ∀ n, IsTime (clock n)) (h : k ∈ keptFrom fs clock role looked paths) :
    k.IsLegal := by
  obtain ⟨-, ⟨n, ht⟩, p, -, hf, -⟩ := of_mem_keptFrom h
  exact ⟨ht ▸ hc n, hf ▸ p.not_slash_of_fileName⟩

theorem keptFrom_cons (fs : FileSystem) (clock : Nat → String) (role : Role) (looked : Nat) (p : Path)
    (paths : List Path) :
    keptFrom fs clock role looked (p :: paths) = keptFrom fs clock role looked [p] ++
      keptFrom fs clock role (looked + (keptFrom fs clock role looked [p]).length) paths := by
  cases h : fs.read p <;> simp [keptFrom, h]

/-- What is kept depends on what is read. -/
theorem keptFrom_congr (h : ∀ p ∈ paths, ∀ content, fs'.read p = .ok content ↔ fs.read p = .ok content) :
    keptFrom fs' clock role looked paths = keptFrom fs clock role looked paths := by
  induction paths generalizing looked with
  | nil => rfl
  | cons p paths ih =>
    obtain ⟨hp, hpaths⟩ := List.forall_mem_cons.1 h
    rw [keptFrom, keptFrom]
    cases hr : fs.read p with
    | ok content => rw [(hp content).2 hr, ih hpaths]
    | error e =>
      have hr' : ∀ content, fs'.read p ≠ .ok content := fun content he => by simp [(hp content).1 he] at hr
      cases hread : fs'.read p with
      | ok content => exact absurd hread (hr' content)
      | error e' => exact ih hpaths

/-- Files with different names get different copies, even at one time. -/
theorem nodup_keptFrom (hc : ∀ n, IsTime (clock n)) (hn : (paths.map Path.fileName).Nodup) :
    ((keptFrom fs clock role looked paths).map Kept.name).Nodup := by
  induction paths generalizing looked with
  | nil => exact .nil
  | cons p paths ih =>
    rw [List.map_cons, List.nodup_cons] at hn
    rw [keptFrom]
    split
    · rw [List.map_cons, List.nodup_cons]
      refine ⟨fun hm => hn.1 ?_, ih hn.2⟩
      obtain ⟨k, hk, hname⟩ := List.mem_map.1 hm
      obtain ⟨-, ⟨n, htime⟩, q, hq, hfile, -⟩ := of_mem_keptFrom hk
      obtain ⟨-, -, hsame⟩ := (copyName_inj (htime ▸ hc n) (hc looked)).1 hname
      exact List.mem_map.2 ⟨q, hq, hfile.symm.trans hsame⟩
    · exact ih hn.2

end Galley.Workspace
