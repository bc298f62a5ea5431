import Galley.Digest.Sha256
import Galley.Path.Order
import Galley.Text.Hex
import Galley.Text.Utf8

/-!
The dependency graph: one entry for each imported file, in the order of their paths. The first entry
of a path stays.
-/

namespace Galley.Dependency

def digestBytes : Nat := 16

def scratchStart : String := "imported_"

/-- The name under which a dependency is handed to the compiler. The digest of the whole path keeps
files of one name apart. -/
def scratchName (source : Path) : String :=
  let digest := (Sha256.digest (Text.Utf8.encode source.text)).take digestBytes
  scratchStart ++ String.ofList (Text.Hex.encode digest) ++ "_" ++ source.fileName

/-- An imported file. -/
structure Entry where
  /-- Where the file is. -/
  source : Path
  /-- Its name for the compiler. -/
  scratch : String
  /-- The path by which it was first imported. -/
  importedAs : String
deriving DecidableEq, Repr

def Entry.of (source : Path) (importedAs : String) : Entry :=
  ⟨source, scratchName source, importedAs⟩

def Entry.Before (a b : Entry) : Prop := a.source.compare b.source = .lt

/-- An entry put into its place, unless the place is taken. -/
def insertInto (e : Entry) : List Entry → List Entry
  | [] => [e]
  | x :: xs =>
    match e.source.compare x.source with
    | .lt => e :: x :: xs
    | .eq => x :: xs
    | .gt => x :: insertInto e xs

theorem mem_insertInto {e x : Entry} {entries : List Entry} (h : x ∈ insertInto e entries) :
    x = e ∨ x ∈ entries := by
  induction entries with
  | nil => simpa [insertInto] using h
  | cons y ys ih =>
    simp only [insertInto] at h
    split at h
    · simpa using h
    · exact .inr h
    · rcases List.mem_cons.1 h with h | h
      · exact .inr (by simp [h])
      · exact (ih h).imp_right (List.mem_cons_of_mem _)

theorem pairwise_insertInto {e : Entry} {entries : List Entry}
    (h : entries.Pairwise Entry.Before) : (insertInto e entries).Pairwise Entry.Before := by
  induction entries with
  | nil => simp [insertInto]
  | cons y ys ih =>
    obtain ⟨hy, hys⟩ := List.pairwise_cons.1 h
    simp only [insertInto]
    split
    · next hlt =>
      refine List.pairwise_cons.2 ⟨fun x hx => ?_, h⟩
      rcases List.mem_cons.1 hx with rfl | hx
      · exact hlt
      · exact Std.TransCmp.lt_trans hlt (hy x hx)
    · exact h
    · next hgt =>
      refine List.pairwise_cons.2 ⟨fun x hx => ?_, ih hys⟩
      rcases mem_insertInto hx with rfl | hx
      · exact Std.OrientedCmp.lt_of_gt hgt
      · exact hy x hx

/-- The imported files in the order of their paths. -/
structure Graph where
  entries : List Entry
  sorted : entries.Pairwise Entry.Before

namespace Graph

def empty : Graph := ⟨[], .nil⟩

/-- The graph with a file, unless it is there. -/
def insert (g : Graph) (source : Path) (importedAs : String) : Graph :=
  ⟨insertInto (.of source importedAs) g.entries, pairwise_insertInto g.sorted⟩

def get? (g : Graph) (source : Path) : Option Entry := g.entries.find? fun e => e.source.same source

def contains (g : Graph) (source : Path) : Bool := (g.get? source).isSome

/-- Whether a file is new to the graph, and the graph with it. -/
def insertNew (g : Graph) (source : Path) (importedAs : String) : Bool × Graph :=
  if g.contains source then (false, g) else (true, g.insert source importedAs)

def scratch? (g : Graph) (source : Path) : Option String := (g.get? source).map Entry.scratch

def size (g : Graph) : Nat := g.entries.length

end Graph

end Galley.Dependency
