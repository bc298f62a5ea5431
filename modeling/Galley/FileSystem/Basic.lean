import Galley.Path.Basic
import Galley.Text.Utf8

/-!
File systems: files, directories and links, each at its location below the root. A location is the
list of names on the way there, so nothing on the way is a link. What stands at a location after
`set` and `remove` is said by `node?_set` and `node?_remove`.
-/

namespace Galley

abbrev Location := List String

/-- What stands at a location. -/
inductive Node where
  | file (content : Text.Bytes)
  | directory
  | link (target : String)
deriving DecidableEq, Repr

/-- A file system as a process sees it. -/
structure FileSystem where
  /-- What stands below the root. -/
  entries : List (Location × Node)
  /-- Where relative paths begin. -/
  current : Location
  distinct : (entries.map Prod.fst).Nodup

namespace FileSystem

/-- What stands at a location; the root is a directory. -/
def node? (fs : FileSystem) (place : Location) : Option Node :=
  if place = [] then some .directory else fs.entries.lookup place

def empty : FileSystem := ⟨[], [], .nil⟩

instance : Inhabited FileSystem := ⟨empty⟩

/-- The entries that satisfy `p`. -/
def restrict (fs : FileSystem) (p : Location → Bool) : FileSystem where
  entries := fs.entries.filter fun e => p e.1
  current := fs.current
  distinct := fs.distinct.sublist (List.filter_sublist.map Prod.fst)

def set (fs : FileSystem) (place : Location) (node : Node) : FileSystem where
  entries := (fs.restrict (· ≠ place)).entries ++ [(place, node)]
  current := fs.current
  distinct := by
    rw [List.map_append, List.nodup_append]
    refine ⟨(fs.restrict _).distinct, by simp, ?_⟩
    rintro a ha b hb rfl
    obtain rfl : a = place := by simpa using hb
    simp [restrict] at ha

/-- Take away what stands at a location and below it. -/
def remove (fs : FileSystem) (place : Location) : FileSystem :=
  fs.restrict fun other => !place.isPrefixOf other

/-- The locations directly below one. -/
def children (fs : FileSystem) (place : Location) : List Location :=
  (fs.entries.map Prod.fst).filter fun other => other ≠ [] && other.dropLast = place

def fileEntries (fs : FileSystem) : List (Location × Node) :=
  fs.entries.filter fun e => e.2 matches .file _

def fileCount (fs : FileSystem) : Nat := fs.fileEntries.length

private theorem lookup_filter (p : Location → Bool) (place : Location)
    (entries : List (Location × Node)) :
    (entries.filter fun e => p e.1).lookup place = if p place then entries.lookup place else none := by
  induction entries with
  | nil => simp
  | cons e entries ih =>
    obtain ⟨k, n⟩ := e
    by_cases hk : place = k
    · subst hk
      by_cases hp : p place <;> simp [List.filter, hp, ih]
    · have hb : (place == k) = false := by simpa using hk
      by_cases hp : p k <;> simp [List.filter, hp, ih, List.lookup_cons, hb]

private theorem lookup_append_single (place other : Location) (node : Node)
    (entries : List (Location × Node)) :
    (entries ++ [(place, node)]).lookup other =
      ((entries.lookup other).or (if other = place then some node else none)) := by
  induction entries with
  | nil =>
    by_cases h : other = place
    · simp [h]
    · have hb : (other == place) = false := by simpa using h
      simp [List.lookup_cons, hb, h]
  | cons e entries ih =>
    obtain ⟨k, n⟩ := e
    by_cases hk : other = k
    · simp [hk]
    · have hb : (other == k) = false := by simpa using hk
      simp [List.lookup_cons, hb, ih]

theorem node?_restrict (fs : FileSystem) (p : Location → Bool) (place : Location) :
    (fs.restrict p).node? place = if place = [] ∨ p place then fs.node? place else none := by
  by_cases hr : place = []
  · simp [node?, hr]
  · simp [node?, hr, restrict, lookup_filter]

theorem node?_set (fs : FileSystem) (place other : Location) (node : Node) (hp : place ≠ []) :
    (fs.set place node).node? other = if other = place then some node else fs.node? other := by
  by_cases hr : other = []
  · simp [node?, hr, Ne.symm hp]
  · have hl := lookup_filter (fun l => decide (l ≠ place)) other fs.entries
    by_cases ho : other = place
    · subst ho
      rw [if_neg (by simp)] at hl
      simp only [node?, hr, set, restrict, lookup_append_single, hl, if_true, if_false, Option.or]
    · rw [if_pos (by simpa using ho)] at hl
      simp only [node?, hr, set, restrict, lookup_append_single, hl, ho, if_false, Option.or_none]

/-- What stood below a removed location is gone, and nothing else. -/
theorem node?_remove (fs : FileSystem) (place other : Location) :
    (fs.remove place).node? other =
      if other = [] ∨ ¬place <+: other then fs.node? other else none := by
  simp [remove, node?_restrict, List.isPrefixOf_iff_prefix, ← Bool.not_eq_true]

end FileSystem

def Path.ofLocation (place : Location) : Path :=
  ⟨if place = [] then "/" else String.join (place.map ("/" ++ ·))⟩

end Galley
