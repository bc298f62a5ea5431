import Galley.FileSystem.Basic
import Galley.Path.Order

/-! # The path of a location

The text that writes a location splits into its names again, so its components tell the location.
Two such paths are the same path only when they are one text. -/

namespace Galley

namespace Text

theorem splitOnChar_eq_singleton {p : Char → Bool} {text : List Char}
    (h : ∀ c ∈ text, p c = false) : splitOnChar p text = [text] := by
  induction text with
  | nil => rfl
  | cons c text ih =>
    have ht : splitOnChar p text = [text] := ih fun c hc => h c (List.mem_cons_of_mem _ hc)
    simp [splitOnChar, h c (by simp), ht]

theorem splitOnChar_append {p : Char → Bool} {text : List Char} {c : Char} (rest : List Char)
    (h : ∀ c ∈ text, p c = false) (hc : p c = true) :
    splitOnChar p (text ++ c :: rest) = text :: splitOnChar p rest := by
  induction text with
  | nil => simp [splitOnChar, hc]
  | cons d text ih =>
    have ht := ih fun c hc => h c (List.mem_cons_of_mem _ hc)
    simp [splitOnChar, h d (by simp), ht]

/-- No piece has a character at which the text was cut. -/
theorem not_of_mem_splitOnChar {p : Char → Bool} {text piece : List Char}
    (h : piece ∈ splitOnChar p text) : ∀ c ∈ piece, p c = false := by
  induction text generalizing piece with
  | nil => simp_all [splitOnChar]
  | cons d text ih =>
    by_cases hd : p d = true
    · simp only [splitOnChar, hd, if_true, List.mem_cons] at h
      rcases h with rfl | h
      · simp
      · exact ih h
    · have hd' : p d = false := by simpa using hd
      simp only [splitOnChar, hd', Bool.false_eq_true, if_false] at h
      split at h
      · intro c hc
        simp_all
      · next first pieces he =>
        rcases List.mem_cons.1 h with rfl | h
        · intro c hc
          rcases List.mem_cons.1 hc with rfl | hc
          · exact hd'
          · exact ih (by simp [he]) c hc
        · exact ih (by simp [he, h])

end Text

namespace Path

/-- A text that names something in a directory. -/
structure IsName (name : String) : Prop where
  noSlash : '/' ∉ name.toList
  notIdle : isIdle name.toList = false
  notParent : name.toList ≠ ['.', '.']

theorem isName_iff {name : String} :
    IsName name ↔ '/' ∉ name.toList ∧ isIdle name.toList = false ∧ name.toList ≠ ['.', '.'] :=
  ⟨fun h => ⟨h.noSlash, h.notIdle, h.notParent⟩, fun ⟨hs, hi, hp⟩ => ⟨hs, hi, hp⟩⟩

instance (name : String) : Decidable (IsName name) := decidable_of_iff _ isName_iff.symm

theorem not_slash_of_mem_segments {p : Path} {segment : List Char} (h : segment ∈ p.segments) :
    '/' ∉ segment := by
  intro hm
  have := Text.not_of_mem_splitOnChar h '/' hm
  simp at this

/-- What a walk takes from a segment is a name. -/
theorem isName_ofList {segment : List Char} (hs : '/' ∉ segment) (hi : isIdle segment = false)
    (hp : segment ≠ ['.', '.']) : IsName (String.ofList segment) :=
  ⟨by simpa using hs, by simpa using hi, by simpa using hp⟩

/-- One name and those after it, each behind a slash, are cut apart again. -/
private theorem splitOnChar_names {name : String} {place : Location} (hn : IsName name)
    (h : ∀ name ∈ place, IsName name) :
    Text.splitOnChar (· == '/') (name.toList ++ place.flatMap fun name => '/' :: name.toList) =
      name.toList :: place.map String.toList := by
  have hc : ∀ c ∈ name.toList, (c == '/') = false := by
    intro c hc
    rw [beq_eq_false_iff_ne]
    rintro rfl
    exact hn.noSlash hc
  induction place generalizing name with
  | nil => simp [Text.splitOnChar_eq_singleton hc]
  | cons next place ih =>
    have hnext := h next (by simp)
    rw [List.flatMap_cons, List.cons_append, Text.splitOnChar_append _ hc (by simp),
      ih hnext (fun name hm => h name (List.mem_cons_of_mem _ hm)), List.map_cons]
    intro c hc
    rw [beq_eq_false_iff_ne]
    rintro rfl
    exact hnext.noSlash hc

theorem segments_ofLocation {place : Location} (h : ∀ name ∈ place, IsName name)
    (hne : place ≠ []) : (ofLocation place).segments = [] :: place.map String.toList := by
  cases place with
  | nil => exact absurd rfl hne
  | cons name place =>
    have hs := splitOnChar_names (h name (by simp))
      (fun name hm => h name (List.mem_cons_of_mem _ hm))
    simp [segments, ofLocation, Text.splitOnChar, hs, List.flatMap_map]

theorem isAbsolute_ofLocation (place : Location) : (ofLocation place).isAbsolute = true := by
  cases place <;> simp [isAbsolute, ofLocation]

theorem segments_root : (ofLocation []).segments = [[], []] := rfl

private theorem ofSegment_name {name : String} (h : IsName name) :
    ofSegment name.toList = .normal name := by
  rw [ofSegment, if_neg h.notParent, String.ofList_toList]

/-- The components of a location's path are the root and the names on the way. -/
theorem components_ofLocation {place : Location} (h : ∀ name ∈ place, IsName name) :
    (ofLocation place).components = .root :: place.map .normal := by
  by_cases hne : place = []
  · subst hne
    rfl
  have hi : (place.map String.toList).filter (fun s => !isIdle s) = place.map String.toList := by
    rw [List.filter_eq_self]
    intro segment hs
    obtain ⟨name, hm, rfl⟩ := List.mem_map.1 hs
    simp [(h name hm).notIdle]
  have hm : (place.map String.toList).map ofSegment = place.map .normal := by
    rw [List.map_map]
    exact List.map_congr_left fun name hm => ofSegment_name (h name hm)
  simp only [components, segments_ofLocation h hne, List.isEmpty_nil, if_true, hi, hm]
  simp [hne]

/-- Different locations are written as different paths. -/
theorem eq_of_same_ofLocation {place other : Location} (h : ∀ name ∈ place, IsName name)
    (ho : ∀ name ∈ other, IsName name) (hs : (ofLocation place).same (ofLocation other) = true) :
    place = other := by
  rw [same_iff, components_ofLocation h, components_ofLocation ho, List.cons_inj_right] at hs
  exact (List.map_inj_right fun a b hab => Component.normal.inj hab).1 hs

theorem ofLocation_inj {place other : Location} (h : ∀ name ∈ place, IsName name)
    (ho : ∀ name ∈ other, IsName name) : ofLocation place = ofLocation other ↔ place = other :=
  ⟨fun he => eq_of_same_ofLocation h ho (by rw [he, same_iff]), fun he => by rw [he]⟩

end Path

end Galley
