import Galley.Proofs.Text.EditDistance
import Galley.Template.Suggestion
import Mathlib.Data.List.FinRange

/-! # The nearest names

The suggestions for a missing name are the best of the names there are: they stand in the order of their
distance and then of their places, and each name that is left out comes after them in that order. -/

namespace Galley.Template.Suggestion

open Text.EditDistance (Edits distance isLeast_distance)

variable {target : String} {names : List String} {i j k : Fin names.length}

/-- How far the name at a place is from the missing one. -/
def distanceAt (target : String) (names : List String) (i : Fin names.length) : Nat :=
  distance target.toList (names.get i).toList

/-- The name at the first place is nearer than that at the second, or as near and stands before it. -/
def Before (target : String) (names : List String) (i j : Fin names.length) : Prop :=
  distanceAt target names i < distanceAt target names j ∨
    distanceAt target names i = distanceAt target names j ∧ i < j

/-- The places of the best suggestions: three at most, none of a name that is further away than half as many
edits as the missing name has octets, and as many as there are. -/
structure Best (target : String) (names : List String) (picked : List (Fin names.length)) : Prop where
  least : ∀ i, IsLeast {n | Edits n target.toList (names.get i).toList} (distanceAt target names i)
  few : picked.length ≤ 3
  near : ∀ i ∈ picked, distanceAt target names i ≤ target.utf8ByteSize / 2
  ordered : picked.Pairwise (Before target names)
  ahead : ∀ i ∈ picked, ∀ j ∉ picked, Before target names i j
  full : picked.length < 3 → ∀ j ∉ picked, target.utf8ByteSize / 2 < distanceAt target names j

/-! ## The order of the places -/

/-- Whether the first place is the second, or comes before it. -/
def notAfter (target : String) (names : List String) (i j : Fin names.length) : Bool :=
  distanceAt target names i < distanceAt target names j ||
    distanceAt target names i == distanceAt target names j && i ≤ j

theorem notAfter_iff : notAfter target names i j = true ↔
    distanceAt target names i < distanceAt target names j ∨
      distanceAt target names i = distanceAt target names j ∧ i ≤ j := by
  simp only [notAfter, Bool.or_eq_true, decide_eq_true_eq, Bool.and_eq_true, beq_iff_eq]

theorem notAfter_trans (hij : notAfter target names i j = true) (hjk : notAfter target names j k = true) :
    notAfter target names i k = true := by
  rw [notAfter_iff] at *
  omega

theorem notAfter_total (i j : Fin names.length) :
    (notAfter target names i j || notAfter target names j i) = true := by
  rw [Bool.or_eq_true, notAfter_iff, notAfter_iff]
  omega

theorem before_of_notAfter (h : notAfter target names i j = true) (hne : i ≠ j) :
    Before target names i j := by
  rw [notAfter_iff] at h
  rw [Before]
  omega

/-- All places, the best first. -/
def places (target : String) (names : List String) : List (Fin names.length) :=
  (List.finRange names.length).mergeSort (notAfter target names)

theorem mem_places (i : Fin names.length) : i ∈ places target names :=
  List.mem_mergeSort.2 (List.mem_finRange i)

theorem pairwise_places (target : String) (names : List String) :
    (places target names).Pairwise (Before target names) := by
  have hsorted := @List.pairwise_mergeSort _ (notAfter target names) (fun _ _ _ => notAfter_trans)
    notAfter_total (List.finRange names.length)
  have hdistinct : (places target names).Nodup :=
    (List.mergeSort_perm _ _).nodup_iff.2 (List.nodup_finRange _)
  exact hsorted.imp₂ (fun _ _ => before_of_notAfter) hdistinct

/-- The sort by distance alone keeps equally near names in their order, so it is that by both. -/
theorem places_eq (target : String) (names : List String) :
    places target names = (List.finRange names.length).mergeSort fun i j =>
      distanceAt target names i ≤ distanceAt target names j := by
  have hzip : (List.finRange names.length).zipIdx = (List.finRange names.length).map fun i => (i, i.val) := by
    refine List.ext_getElem (by simp) fun n h _ => ?_
    simp
  rw [← List.mergeSort_zipIdx, hzip, ← List.map_mergeSort (r := notAfter target names), List.map_map]
  · exact (List.map_id _).symm
  · intro i _ j _
    rw [List.zipIdxLE, notAfter]
    rcases Nat.lt_trichotomy (distanceAt target names i) (distanceAt target names j) with h | h | h
    · simp [h, h.le, h.not_ge]
    · simp [h]
    · simp [h.not_ge, h.not_gt, h.ne']

theorem sorted_eq (target : String) (names : List String) :
    (names.map fun name => (name, distance target.toList name.toList)).mergeSort (fun a b => a.2 ≤ b.2) =
      (places target names).map fun i => (names.get i, distanceAt target names i) := by
  have hnames : (names.map fun name => (name, distance target.toList name.toList)) =
      (List.finRange names.length).map fun i => (names.get i, distanceAt target names i) := by
    refine List.ext_getElem (by simp) fun n _ _ => ?_
    simp [distanceAt]
  rw [hnames, places_eq]
  refine (List.map_mergeSort (f := fun i => (names.get i, distanceAt target names i)) ?_).symm
  exact fun _ _ _ _ => rfl

/-! ## The suggestions -/

/-- The places of the names that are suggested. -/
def chosen (target : String) (names : List String) : List (Fin names.length) :=
  ((places target names).filter fun i => distanceAt target names i ≤ limit target).take most

theorem nearest_eq (target : String) (names : List String) :
    nearest target names = (chosen target names).map names.get := by
  simp only [nearest, chosen, sorted_eq, List.filter_map, ← List.map_take, List.map_map]
  rfl

theorem limit_eq (target : String) : limit target = target.utf8ByteSize / 2 := by
  rw [limit, thresholdPercent]
  omega

theorem best_chosen (target : String) (names : List String) :
    Best target names (chosen target names) := by
  set near := (places target names).filter fun i => distanceAt target names i ≤ limit target with hnear
  have hmem : ∀ i, i ∈ near ↔ distanceAt target names i ≤ target.utf8ByteSize / 2 := fun i => by
    simp [hnear, mem_places, limit_eq]
  have hordered : near.Pairwise (Before target names) := (pairwise_places target names).filter _
  have hsplit : chosen target names ++ near.drop most = near := List.take_append_drop most near
  have hchosen : ∀ i ∈ chosen target names, i ∈ near := fun i hi => List.mem_of_mem_take hi
  have hparts := hordered
  rw [← hsplit, List.pairwise_append] at hparts
  obtain ⟨hfront, -, hacross⟩ := hparts
  refine ⟨fun i => isLeast_distance _ _, List.length_take_le most near,
    fun i hi => (hmem i).1 (hchosen i hi), hfront, ?_, ?_⟩
  · intro i hi j hj
    by_cases hjnear : j ∈ near
    · rw [← hsplit, List.mem_append] at hjnear
      exact hacross i hi j (hjnear.resolve_left hj)
    · have hlimit := (hmem i).1 (hchosen i hi)
      rw [hmem] at hjnear
      exact .inl (by omega)
  · intro hfew j hj
    have hall : chosen target names = near := by
      refine List.take_of_length_le ?_
      rw [chosen, List.length_take] at hfew
      have hmost : most = 3 := rfl
      omega
    rw [hall, hmem] at hj
    omega

end Galley.Template.Suggestion
