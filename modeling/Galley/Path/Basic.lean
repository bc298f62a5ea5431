import Galley.Text.Search

/-!
Paths: texts whose components are read between slashes. Two texts are the same path when their
components are; a repeated slash, an inner `.` and a trailing slash make no difference, while `..`
and a leading `.` are kept.
-/

namespace Galley

/-- A path, as it was written. -/
structure Path where
  text : String
deriving DecidableEq, Repr, Inhabited

namespace Path

/-- A component of a path. -/
inductive Component where
  | root
  | current
  | parent
  | normal (name : String)
deriving DecidableEq, Repr

namespace Component

def text : Component → String
  | .root => "/"
  | .current => "."
  | .parent => ".."
  | .normal name => name

def rank : Component → Nat
  | .root => 0
  | .current => 1
  | .parent => 2
  | .normal _ => 3

def name : Component → String
  | .normal name => name
  | _ => ""

def compare : Component → Component → Ordering := compareLex (compareOn rank) (compareOn name)

end Component

def segments (p : Path) : List (List Char) := Text.splitOnChar (· == '/') p.text.toList

def isIdle (segment : List Char) : Bool := segment.isEmpty || segment == ['.']

/-- The component of a segment that is not idle. -/
def ofSegment (segment : List Char) : Component :=
  if segment = ['.', '.'] then .parent else .normal (String.ofList segment)

def components (p : Path) : List Component :=
  match p.segments with
  | [] => []
  | first :: rest =>
    let inner := (rest.filter fun s => !isIdle s).map ofSegment
    if first.isEmpty then if rest.isEmpty then [] else .root :: inner
    else if first = ['.'] then .current :: inner
    else ofSegment first :: inner

def same (p q : Path) : Bool := p.components == q.components

def compare (p q : Path) : Ordering := List.compareLex Component.compare p.components q.components

/-- Whether the components of `base` begin those of `p`. -/
def startsWith (p base : Path) : Bool := base.components.isPrefixOf p.components

def isAbsolute (p : Path) : Bool := p.text.toList.head? == some '/'

def isEmpty (p : Path) : Bool := p.text.isEmpty

/-- A text seen from a path: an absolute text stands for itself, another follows a slash. -/
def join (base : Path) (text : String) : Path :=
  if text.toList.head? = some '/' then ⟨text⟩
  else if base.text.isEmpty || base.text.toList.getLast? = some '/' then ⟨base.text ++ text⟩
  else ⟨base.text ++ "/" ++ text⟩

/-- The segments of a path without the idle ones at its end; the first is always kept. -/
private def trimmed : List (List Char) → List (List Char)
  | [] => []
  | first :: rest => first :: (rest.reverse.dropWhile isIdle).reverse

private def ofSegments (segments : List (List Char)) : Path :=
  if segments = [[]] then ⟨"/"⟩ else ⟨String.ofList (['/'].intercalate segments)⟩

/-- The path without its last component; the root and the empty path have none to lose. -/
def parent? (p : Path) : Option Path :=
  match trimmed p.segments with
  | [] => none
  | [first] => if first.isEmpty then none else some ⟨""⟩
  | segments => some (ofSegments (trimmed segments.dropLast))

private theorem trimmed_cons {first : List Char} {rest : List (List Char)}
    (h : ∀ last ∈ rest.getLast?, isIdle last = false) : trimmed (first :: rest) = first :: rest := by
  rcases List.eq_nil_or_concat rest with rfl | ⟨front, last, rfl⟩
  · rfl
  · simp [trimmed, h last (by simp)]

theorem parent?_of_segments {p : Path} {first last : List Char} {inner : List (List Char)}
    (h : p.segments = first :: inner ++ [last]) (hi : ∀ s ∈ inner ++ [last], isIdle s = false) :
    p.parent? = some (if first :: inner = [[]] then ⟨"/"⟩
      else ⟨String.ofList (['/'].intercalate (first :: inner))⟩) := by
  have hall : trimmed (first :: (inner ++ [last])) = first :: (inner ++ [last]) :=
    trimmed_cons (by simp [hi last (by simp)])
  have hfront : trimmed (first :: inner) = first :: inner :=
    trimmed_cons fun s hs => hi s (List.mem_append_left _ (List.mem_of_getLast? hs))
  have hdrop : (first :: (inner ++ [last])).dropLast = first :: inner := by
    rw [← List.cons_append, List.dropLast_concat]
  rw [parent?, h, List.cons_append, hall]
  split
  · next he => cases he
  · next he => simp at he
  · rw [hdrop, hfront, ofSegments]

private theorem exists_trimmed (first : List Char) (rest : List (List Char)) :
    ∃ inner idle, rest = inner ++ idle ∧ trimmed (first :: rest) = first :: inner ∧
      ∀ last ∈ inner.getLast?, isIdle last = false := by
  refine ⟨(rest.reverse.dropWhile isIdle).reverse, (rest.reverse.takeWhile isIdle).reverse, ?_, rfl, ?_⟩
  · rw [← List.reverse_append, List.takeWhile_append_dropWhile, List.reverse_reverse]
  · intro last hl
    rw [List.getLast?_reverse] at hl
    have hall := List.head?_dropWhile_not isIdle rest.reverse
    rw [Option.mem_def.1 hl] at hall
    simpa using hall

/-- The segments of a path with a parent are those of the parent, of which the first is kept, and more. -/
theorem exists_segments_of_parent? {p parent : Path} (h : p.parent? = some parent) :
    parent = ⟨""⟩ ∨ ∃ front more, front ≠ [] ∧ p.segments = front ++ more ∧
      (∃ segment ∈ more, isIdle segment = false) ∧
      parent = if front = [[]] then ⟨"/"⟩ else ⟨String.ofList (['/'].intercalate front)⟩ := by
  cases hp : p.segments with
  | nil =>
    rw [parent?, hp] at h
    cases h
  | cons first rest =>
    obtain ⟨inner, idle, rfl, htrimmed, hlast⟩ := exists_trimmed first rest
    rw [parent?, hp, htrimmed] at h
    rcases List.eq_nil_or_concat inner with rfl | ⟨init, last, rfl⟩
    · refine .inl ?_
      by_cases hf : first.isEmpty = true
      · simp [hf] at h
      · simpa [hf, eq_comm] using h
    · rw [List.concat_eq_append] at h hlast hp ⊢
      obtain ⟨mid, idle', rfl, htrimmed', -⟩ := exists_trimmed first init
      have hdrop : (first :: (mid ++ idle' ++ [last])).dropLast = first :: (mid ++ idle') := by
        rw [← List.cons_append, List.dropLast_concat]
      refine .inr ⟨first :: mid, idle' ++ [last] ++ idle, by simp, by simp, ⟨last, by simp, ?_⟩, ?_⟩
      · exact hlast last (by simp)
      · split at h
        · next he => cases he
        · next he => simp at he
        · rw [hdrop, htrimmed', ofSegments] at h
          exact (Option.some.inj h).symm

/-- The last component, when it is a name. -/
def fileName? (p : Path) : Option String :=
  match p.components.getLast? with
  | some (.normal name) => some name
  | _ => none

/-- The last component, when it is a name, and else the empty text. -/
def fileName (p : Path) : String := p.fileName?.getD ""

/-- The place of the last dot of a name, unless only that dot comes before the rest. -/
private def splitName (name : List Char) : List Char × Option (List Char) :=
  let back := name.reverse
  let extension := (back.takeWhile (· ≠ '.')).reverse
  match back.dropWhile (· ≠ '.') with
  | [] => (name, none)
  | _ :: before => if before.isEmpty then (name, none) else (before.reverse, some extension)

private theorem splitName_append {front back : List Char} (hf : front ≠ []) (hb : '.' ∉ back) :
    splitName (front ++ '.' :: back) = (front, some back) := by
  have hback : ∀ c ∈ back.reverse, decide (c ≠ '.') = true := by
    intro c hc
    rw [List.mem_reverse] at hc
    exact decide_eq_true fun he => hb (he ▸ hc)
  have hsplit : (front ++ '.' :: back).reverse = back.reverse ++ '.' :: front.reverse := by simp
  have hstop : ('.' :: front.reverse).dropWhile (fun c => decide (c ≠ '.')) = '.' :: front.reverse := by
    simp
  simp only [splitName, hsplit, List.takeWhile_append_of_pos hback, List.dropWhile_append_of_pos hback,
    hstop]
  simp [hf]

/-- The file name up to its last dot; a dot in front does not count. -/
def stem? (p : Path) : Option String := p.fileName?.map fun n => String.ofList (splitName n.toList).1

theorem stem?_of_extension {p : Path} {stem extension : String}
    (h : p.fileName? = some (stem ++ "." ++ extension)) (hs : stem ≠ "")
    (he : '.' ∉ extension.toList) : p.stem? = some stem := by
  have hname : (stem ++ "." ++ extension).toList = stem.toList ++ '.' :: extension.toList := by simp
  rw [stem?, h, Option.map_some, hname, splitName_append (by simpa using hs) he, String.ofList_toList]

private theorem splitName_cases (name : List Char) :
    (splitName name).1 = name ∨ ∃ front back, (splitName name).1 = front ∧ front ≠ [] ∧
      name = front ++ '.' :: back := by
  have hjoined := List.takeWhile_append_dropWhile (p := fun c => decide (c ≠ '.')) (l := name.reverse)
  have hhead := List.head?_dropWhile_not (fun c => decide (c ≠ '.')) name.reverse
  cases hrest : name.reverse.dropWhile (fun c => decide (c ≠ '.')) with
  | nil => exact .inl (by simp only [splitName, hrest])
  | cons c before =>
    rw [hrest] at hjoined hhead
    obtain rfl : c = '.' := by simpa using hhead
    generalize name.reverse.takeWhile (fun c => decide (c ≠ '.')) = back at hjoined
    have hname : name = before.reverse ++ '.' :: back.reverse := by
      rw [← List.reverse_reverse name, ← hjoined, List.reverse_append, List.reverse_cons,
        List.append_assoc, List.singleton_append]
    by_cases hb : before = []
    · exact .inl (by simp only [splitName, hrest, hb, List.isEmpty_nil, if_true])
    · refine .inr ⟨before.reverse, back.reverse, ?_, by simpa using hb, hname⟩
      simp only [splitName, hrest, List.isEmpty_iff, hb, if_false]

/-- The name of a file is its stem, or goes on after the stem with a dot. -/
theorem exists_stem {p : Path} {name : String} (h : p.fileName? = some name) (hn : name ≠ "") :
    ∃ stem, p.stem? = some stem ∧ stem ≠ "" ∧
      (name = stem ∨ ∃ extension, name = stem ++ "." ++ extension) := by
  refine ⟨String.ofList (splitName name.toList).1, by rw [stem?, h, Option.map_some], ?_⟩
  rcases splitName_cases name.toList with hs | ⟨front, back, hs, hne, hname⟩
  · rw [hs, String.ofList_toList]
    exact ⟨hn, .inl rfl⟩
  · rw [hs]
    refine ⟨by simpa using hne, .inr ⟨String.ofList back, ?_⟩⟩
    rw [← String.toList_inj, hname]
    simp

def withExtension (p : Path) (extension : String) : Path :=
  match p.stem?, trimmed p.segments with
  | none, _ | _, [] => p
  | some stem, segments =>
    let name := if extension.isEmpty then stem else stem ++ "." ++ extension
    ⟨String.ofList (['/'].intercalate (segments.dropLast ++ [name.toList]))⟩

/-- Another extension changes what comes after the stem of the last segment. -/
theorem withExtension_of_segments {p : Path} {first last : List Char} {inner : List (List Char)}
    {stem : String} (hs : p.stem? = some stem) (h : p.segments = first :: inner ++ [last])
    (hl : isIdle last = false) (extension : String) :
    p.withExtension extension = ⟨String.ofList (['/'].intercalate (first :: inner ++
      [(if extension.isEmpty then stem else stem ++ "." ++ extension).toList]))⟩ := by
  have htrimmed : trimmed p.segments = first :: (inner ++ [last]) := by
    rw [h, List.cons_append]
    exact trimmed_cons (by simp [hl])
  have hdrop : (first :: (inner ++ [last])).dropLast = first :: inner := by
    rw [← List.cons_append, List.dropLast_concat]
  simp only [withExtension, hs, htrimmed, hdrop]

end Path

end Galley
