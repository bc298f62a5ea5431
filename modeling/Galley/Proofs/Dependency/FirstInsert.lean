import Galley.Proofs.Dependency.ScratchName
import Galley.Proofs.FileSystem.Entry
import Mathlib.Data.Finset.Card
import Mathlib.Data.List.Lex
import Mathlib.Data.String.Basic

/-! # The first file of a path stays

What is looked up in a graph is the first file that was put into it under the components of the path. All
else follows from that one equation: the answers, the entries with their names, and their number. Texts
are read as components first, so no spelling of a path matters. -/

namespace Galley

/-- A list comes before another in the order of their items when it does so at the first difference. -/
theorem compareLex_eq_lt_iff {α : Type} {cmp : α → α → Ordering} [Std.LawfulEqCmp cmp]
    {a b : List α} : List.compareLex cmp a b = .lt ↔ List.Lex (fun x y => cmp x y = .lt) a b := by
  induction a generalizing b with
  | nil => cases b <;> simp [List.compareLex]
  | cons x a ih =>
    cases b with
    | nil => simp [List.compareLex]
    | cons y b =>
      rw [List.compareLex_cons_cons, List.cons_lex_cons_iff, Ordering.then_eq_lt, ih,
        Std.LawfulEqCmp.compare_eq_iff_eq]

namespace Path

/-! ## Order and spelling -/

/-- The root comes first, then `.`, then `..`, then names in the order of their characters. -/
def Component.Below (c d : Component) : Prop :=
  c.rank < d.rank ∨ c.rank = d.rank ∧ c.name < d.name

theorem Component.compare_eq_lt_iff {c d : Component} : c.compare d = .lt ↔ c.Below d := by
  rw [Component.compare, compareLex, Ordering.then_eq_lt, compareOn, compareOn, Nat.compare_eq_lt,
    Nat.compare_eq_eq, compare_lt_iff_lt, Component.Below]

/-- A path comes before another when its components do. -/
theorem compare_eq_lt_iff {p q : Path} :
    p.compare q = .lt ↔ List.Lex Component.Below p.components q.components := by
  have h : p.compare q = .lt ↔
      List.Lex (fun c d => c.compare d = .lt) p.components q.components := compareLex_eq_lt_iff
  simpa only [Component.compare_eq_lt_iff] using h

/-- A segment behind a slash. -/
theorem segments_slash (front back : String) :
    (⟨front ++ "/" ++ back⟩ : Path).segments =
      (⟨front⟩ : Path).segments ++ (⟨back⟩ : Path).segments := by
  have h := Text.splitOnChar_append_cons (p := (· == '/')) (c := '/') (by simp) front.toList
    back.toList
  simpa [segments] using h

theorem segments_idle {segment : String} (h : isIdle segment.toList = true) :
    (⟨segment⟩ : Path).segments = [segment.toList] := by
  refine Text.splitOnChar_eq_singleton fun c hc => ?_
  rw [beq_eq_false_iff_ne]
  rintro rfl
  rw [isIdle, Bool.or_eq_true, List.isEmpty_iff, beq_iff_eq] at h
  rcases h with h | h <;> simp [h] at hc

theorem exists_segments (front : String) :
    ∃ first rest, (⟨front⟩ : Path).segments = first :: rest ∧
      (first = [] → rest = [] → front = "") := by
  obtain ⟨first, rest, h⟩ :=
    List.exists_cons_of_ne_nil (Text.splitOnChar_ne_nil (· == '/') front.toList)
  refine ⟨first, rest, h, ?_⟩
  rintro rfl rfl
  cases hfront : front.toList with
  | nil => exact String.toList_eq_nil_iff.1 hfront
  | cons c text =>
    rw [hfront, Text.splitOnChar] at h
    split at h
    · exact absurd (List.cons.inj h).2 (Text.splitOnChar_ne_nil _ _)
    · split at h <;> cases h

/-- Between slashes, a segment that is empty or a dot makes no difference. -/
theorem components_inner (front back : String) {segment : String}
    (h : isIdle segment.toList = true) :
    (⟨front ++ "/" ++ segment ++ "/" ++ back⟩ : Path).components =
      (⟨front ++ "/" ++ back⟩ : Path).components := by
  obtain ⟨first, rest, hfront, -⟩ := exists_segments front
  obtain ⟨next, more, hback, -⟩ := exists_segments back
  simp [components, segments_slash, segments_idle h, hfront, hback, h]

/-- Behind the last slash it makes none, either. -/
theorem components_last {front segment : String} (hf : front ≠ "")
    (h : isIdle segment.toList = true) :
    (⟨front ++ "/" ++ segment⟩ : Path).components = (⟨front⟩ : Path).components := by
  obtain ⟨first, rest, hfront, hempty⟩ := exists_segments front
  by_cases hfirst : first = []
  · have hrest : rest ≠ [] := fun hr => hf (hempty hfirst hr)
    simp [components, segments_slash, segments_idle h, hfront, h, hfirst, hrest]
  · simp [components, segments_slash, segments_idle h, hfront, h, hfirst]

end Path

namespace Dependency

open Galley.Path (Component)

/-! ## One file -/

theorem Entry.Before.components_ne {a b : Entry} (h : a.Before b) :
    a.source.components ≠ b.source.components := by
  intro he
  rw [Entry.Before, Path.compare_eq_iff.2 he] at h
  cases h

/-- A file that is put in is found unless another was there. -/
theorem find?_insertInto (e : Entry) (q : Path) {entries : List Entry}
    (h : entries.Pairwise Entry.Before) :
    (insertInto e entries).find? (·.source.same q) =
      (entries.find? (·.source.same q)).or (if e.source.same q then some e else none) := by
  induction entries with
  | nil => simp [insertInto]
  | cons x xs ih =>
    rw [insertInto]
    split
    · next hlt =>
      by_cases he : e.source.same q = true
      · -- all that was there comes after the file, and so is another
        have hnone : (x :: xs).find? (·.source.same q) = none := by
          rw [List.find?_eq_none]
          intro y hy hsame
          have hbefore : e.Before y := by
            rcases List.mem_cons.1 hy with rfl | hy
            · exact hlt
            · exact Std.TransCmp.lt_trans hlt ((List.pairwise_cons.1 h).1 y hy)
          exact hbefore.components_ne
            ((Path.same_iff.1 he).trans (Path.same_iff.1 hsame).symm)
        simp only [hnone, List.find?_cons, he, if_true, Option.none_or]
      · simp only [List.find?_cons, he, Bool.false_eq_true, if_false, Option.or_none]
    · next heq =>
      by_cases hx : x.source.same q = true
      · simp only [List.find?_cons, hx, Option.some_or]
      · have he : ¬e.source.same q = true := by
          rwa [Path.same_iff, Path.compare_eq_iff.1 heq, ← Path.same_iff]
        rw [if_neg he, Option.or_none]
    · by_cases hx : x.source.same q = true
      · simp only [List.find?_cons, hx, Option.some_or]
      · simp only [List.find?_cons, hx, ih (List.pairwise_cons.1 h).2]

/-- Nothing is put in where a file of the same path stands. -/
theorem insertInto_of_same {e : Entry} {entries : List Entry} (h : entries.Pairwise Entry.Before)
    (hmem : ∃ x ∈ entries, x.source.same e.source = true) : insertInto e entries = entries := by
  induction entries with
  | nil => simp at hmem
  | cons x xs ih =>
    obtain ⟨y, hy, hsame⟩ := hmem
    have heq : e.source.compare y.source = .eq :=
      Path.compare_eq_iff.2 (Path.same_iff.1 hsame).symm
    rw [insertInto]
    rcases List.mem_cons.1 hy with rfl | hy
    · rw [heq]
    · have hgt : e.source.compare x.source = .gt := by
        rw [Std.TransCmp.congr_left heq]
        exact Std.OrientedCmp.gt_of_lt ((List.pairwise_cons.1 h).1 y hy)
      rw [hgt]
      simp only [ih (List.pairwise_cons.1 h).2 ⟨y, hy, hsame⟩]

namespace Graph

variable {g : Graph} {p q : Path} {importedAs : String} {e : Entry}

theorem get?_insert (g : Graph) (p q : Path) (importedAs : String) :
    (g.insert p importedAs).get? q =
      (g.get? q).or (if p.same q then some (.of p importedAs) else none) :=
  find?_insertInto (.of p importedAs) q g.sorted

theorem of_get?_eq_some (h : g.get? q = some e) :
    e ∈ g.entries ∧ e.source.components = q.components := by
  rw [get?] at h
  have hsame : e.source.same q = true := by simpa using List.find?_some h
  exact ⟨List.mem_of_find?_eq_some h, Path.same_iff.1 hsame⟩

theorem insertNew_snd (g : Graph) (p : Path) (importedAs : String) :
    (g.insertNew p importedAs).2 = g.insert p importedAs := by
  rw [insertNew]
  split
  · next hp =>
    obtain ⟨x, hx⟩ := Option.isSome_iff_exists.1 hp
    obtain ⟨hmem, hsame⟩ := of_get?_eq_some hx
    have hentries : insertInto (.of p importedAs) g.entries = g.entries :=
      insertInto_of_same g.sorted ⟨x, hmem, Path.same_iff.2 hsame⟩
    simp only [insert, hentries]
  · rfl

theorem insertNew_fst (g : Graph) (p : Path) (importedAs : String) :
    (g.insertNew p importedAs).1 = !g.contains p := by
  rw [insertNew]
  split <;> simp_all

theorem get?_congr (g : Graph) (h : p.components = q.components) : g.get? p = g.get? q := by
  simp only [get?, Path.same, h]

theorem nodup_components (g : Graph) : (g.entries.map (·.source.components)).Nodup :=
  List.pairwise_map.2 (g.sorted.imp Entry.Before.components_ne)

/-- An entry is what is looked up under its path. -/
theorem mem_entries_iff : e ∈ g.entries ↔ g.get? e.source = some e := by
  refine ⟨fun he => ?_, List.mem_of_find?_eq_some⟩
  cases hx : g.get? e.source with
  | none => simpa [Path.same] using List.find?_eq_none.1 hx e he
  | some x =>
    obtain ⟨hmem, hsame⟩ := of_get?_eq_some hx
    rw [List.inj_on_of_nodup_map g.nodup_components hmem he hsame]

/-! ## One file after another -/

/-- The graph after files were put into the empty one, each with the import by which it was found. -/
def ofInserts (inserts : List (Path × String)) : Graph :=
  inserts.foldl (fun g put => (g.insertNew put.1 put.2).2) .empty

variable {inserts : List (Path × String)}

theorem ofInserts_concat (inserts : List (Path × String)) (put : Path × String) :
    ofInserts (inserts ++ [put]) = (ofInserts inserts).insert put.1 put.2 := by
  rw [ofInserts, List.foldl_append]
  exact insertNew_snd _ _ _

/-- What is looked up is the first file that was put in under the path. -/
theorem get?_ofInserts (inserts : List (Path × String)) (q : Path) :
    (ofInserts inserts).get? q =
      (inserts.find? (·.1.same q)).map fun put => .of put.1 put.2 := by
  induction inserts using List.reverseRecOn with
  | nil => rfl
  | append_singleton inserts put ih =>
    rw [ofInserts_concat, get?_insert, ih, List.find?_append]
    cases inserts.find? (·.1.same q) with
    | some first => rfl
    | none =>
      rw [List.find?_singleton]
      split <;> rfl

theorem mem_ofInserts_iff : e ∈ (ofInserts inserts).entries ↔
    ∃ front p importedAs back, inserts = front ++ (p, importedAs) :: back ∧
      (∀ put ∈ front, put.1.components ≠ p.components) ∧ e = .of p importedAs := by
  rw [mem_entries_iff, get?_ofInserts, Option.map_eq_some_iff]
  simp only [List.find?_eq_some_iff_append, Bool.not_eq_true', Path.same, beq_eq_false_iff_ne,
    beq_iff_eq]
  constructor
  · rintro ⟨⟨p, importedAs⟩, ⟨-, front, back, rfl, hfront⟩, rfl⟩
    exact ⟨front, p, importedAs, back, rfl, hfront, rfl⟩
  · rintro ⟨front, p, importedAs, back, rfl, hfront, rfl⟩
    exact ⟨(p, importedAs), ⟨rfl, front, back, rfl, hfront⟩, rfl⟩

theorem contains_ofInserts_eq_false_iff : (ofInserts inserts).contains p = false ↔
    ∀ put ∈ inserts, put.1.components ≠ p.components := by
  rw [contains, get?_ofInserts, Option.isSome_map, Option.isSome_eq_false_iff, Option.isNone_iff_eq_none,
    List.find?_eq_none]
  simp only [Path.same_iff, ne_eq]

theorem size_ofInserts (inserts : List (Path × String)) :
    (ofInserts inserts).size = (inserts.map (·.1.components)).toFinset.card := by
  rw [size, ← List.length_map (f := (·.source.components)),
    ← List.toFinset_card_of_nodup (nodup_components _)]
  congr 1
  ext components
  rw [List.mem_toFinset, List.mem_toFinset, List.mem_map, List.mem_map]
  constructor
  · rintro ⟨e, he, rfl⟩
    obtain ⟨front, p, importedAs, back, rfl, -, rfl⟩ := mem_ofInserts_iff.1 he
    exact ⟨(p, importedAs), by simp, rfl⟩
  · rintro ⟨put, hput, rfl⟩
    have hcontains : (ofInserts inserts).contains put.1 = true := by
      rw [← Bool.not_eq_false, contains_ofInserts_eq_false_iff]
      exact fun hnone => hnone put hput rfl
    obtain ⟨e, he⟩ := Option.isSome_iff_exists.1 hcontains
    exact ⟨e, of_get?_eq_some he⟩

/-- Where digests tell texts apart, scratch names tell entries apart. -/
theorem scratch_pairwise_ne (hdigest : ∀ put ∈ inserts, ∀ put' ∈ inserts,
      pathDigest put.1 = pathDigest put'.1 → put.1.text = put'.1.text) :
    (ofInserts inserts).entries.Pairwise fun a b => a.scratch ≠ b.scratch := by
  have hsorted : (ofInserts inserts).entries.Pairwise Entry.Before := (ofInserts inserts).sorted
  refine hsorted.imp_of_mem fun {a b} ha hb hbefore hscratch => hbefore.components_ne ?_
  obtain ⟨front, p, importedAs, back, hp, -, rfl⟩ := mem_ofInserts_iff.1 ha
  obtain ⟨front', q, importedAs', back', hq, -, rfl⟩ := mem_ofInserts_iff.1 hb
  have htext : p.text = q.text := hdigest (p, importedAs) (by simp [hp]) (q, importedAs')
    (by simp [hq]) (pathDigest_of_scratchName hscratch)
  simp only [Entry.of, Path.components, Path.segments, htext]

theorem get?_eq_some_iff : g.get? p = some e ↔
    e ∈ g.entries ∧ e.source.components = p.components := by
  refine ⟨of_get?_eq_some, fun ⟨hmem, hsame⟩ => ?_⟩
  rw [← get?_congr g hsame, ← mem_entries_iff]
  exact hmem

/-- A graph into which files were put, in any spelling, has an entry for each path among them, in the order
of components. It is the entry of the first file under that path, and what is looked up in any spelling. -/
theorem first_insert_stays (inserts : List (Path × String)) :
    let g := ofInserts inserts
    (∀ p importedAs, (g.insertNew p importedAs).1 = true ↔
      ∀ put ∈ inserts, put.1.components ≠ p.components) ∧
    (∀ e, e ∈ g.entries ↔ ∃ front p importedAs back, inserts = front ++ (p, importedAs) :: back ∧
      (∀ put ∈ front, put.1.components ≠ p.components) ∧ e = ⟨p, scratchName p, importedAs⟩) ∧
    (g.entries.Pairwise fun a b =>
      List.Lex Component.Below a.source.components b.source.components) ∧
    (∀ p e, g.get? p = some e ↔ e ∈ g.entries ∧ e.source.components = p.components) ∧
    (∀ p q, p.components = q.components → g.contains p = g.contains q ∧ g.get? p = g.get? q ∧
      g.scratch? p = g.scratch? q) ∧
    (∀ front back segment : String, Path.isIdle segment.toList = true →
      g.get? ⟨front ++ "/" ++ segment ++ "/" ++ back⟩ = g.get? ⟨front ++ "/" ++ back⟩ ∧
      (front ≠ "" → g.get? ⟨front ++ "/" ++ segment⟩ = g.get? ⟨front⟩)) ∧
    (∀ p, g.contains p = (g.get? p).isSome ∧ g.scratch? p = (g.get? p).map Entry.scratch) ∧
    g.size = (inserts.map (·.1.components)).toFinset.card ∧
    ((∀ put ∈ inserts, ∀ put' ∈ inserts,
        pathDigest put.1 = pathDigest put'.1 → put.1.text = put'.1.text) →
      g.entries.Pairwise fun a b => a.scratch ≠ b.scratch) := by
  intro g
  have hsorted : g.entries.Pairwise Entry.Before := g.sorted
  refine ⟨fun p importedAs => ?_, fun e => mem_ofInserts_iff, ?_, fun p e => get?_eq_some_iff,
    fun p q h => ?_, fun front back segment h => ⟨get?_congr g (Path.components_inner front back h),
      fun hf => get?_congr g (Path.components_last hf h)⟩, fun p => ⟨rfl, rfl⟩,
    size_ofInserts inserts, scratch_pairwise_ne⟩
  · rw [insertNew_fst, Bool.not_eq_true', contains_ofInserts_eq_false_iff]
  · exact hsorted.imp Path.compare_eq_lt_iff.1
  · rw [contains, contains, scratch?, scratch?, get?_congr g h]
    exact ⟨rfl, rfl, rfl⟩

/-- Three texts of two paths: the second path has the lesser components and the greater text. -/
def respelled : List (Path × String) :=
  [(⟨"/a.b"⟩, "x"), (⟨"/a//b"⟩, "y"), (⟨"/a/./b/"⟩, "z")]

theorem first_insert_stays_respelled :
    (ofInserts respelled).size = 2 ∧
    (ofInserts respelled).get? ⟨"/a/b"⟩ = some ⟨⟨"/a//b"⟩, scratchName ⟨"/a//b"⟩, "y"⟩ ∧
    (ofInserts respelled).entries.Pairwise fun a b => a.scratch ≠ b.scratch := by
  obtain ⟨-, hmem, -, hget, -, -, -, hsize, hscratch⟩ := first_insert_stays respelled
  refine ⟨hsize.trans (by decide), (hget _ _).2 ⟨(hmem _).2 ?_, by decide⟩, hscratch ?_⟩
  · exact ⟨[(⟨"/a.b"⟩, "x")], ⟨"/a//b"⟩, "y", [(⟨"/a/./b/"⟩, "z")], rfl, by decide, rfl⟩
  · decide +kernel

-- In the order of the texts, `/a.b` comes first.
example : (ofInserts respelled).entries.map (·.source.text) = ["/a//b", "/a.b"] := by decide +kernel

end Graph

end Dependency

end Galley
