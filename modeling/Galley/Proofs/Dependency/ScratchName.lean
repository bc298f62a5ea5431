import Galley.Dependency.Graph
import Galley.Proofs.Path.Location
import Galley.Proofs.Text.Hex
import Galley.Proofs.Text.Span

/-! # Scratch names

A scratch name names a file in a directory. It holds the digest of the whole path, so files with
different digests have different scratch names. -/

namespace Galley

namespace Path

/-- The name of a file has no slash. -/
theorem not_slash_of_fileName (p : Path) : '/' ∉ p.fileName.toList := by
  rw [fileName, fileName?]
  split
  · next name h =>
    have hmem := List.mem_of_getLast? h
    have hsegment : ∀ segment, Component.normal name = ofSegment segment → '/' ∉ segment →
        '/' ∉ name.toList := by
      intro segment hs hn
      rw [ofSegment] at hs
      split at hs
      · cases hs
      · rw [Component.normal.inj hs]
        simpa using hn
    have hinner : ∀ rest : List (List Char), (∀ segment ∈ rest, '/' ∉ segment) →
        Component.normal name ∈ (rest.filter fun s => !isIdle s).map ofSegment → '/' ∉ name.toList := by
      intro rest hrest hm
      obtain ⟨segment, hs, he⟩ := List.mem_map.1 hm
      exact hsegment segment he.symm (hrest _ (List.mem_filter.1 hs).1)
    have hall : ∀ segment ∈ p.segments, '/' ∉ segment := fun _ hs => not_slash_of_mem_segments hs
    rw [components] at hmem
    split at hmem
    · simp at hmem
    · next first rest hp =>
      rw [hp] at hall
      have hrest : ∀ segment ∈ rest, '/' ∉ segment := fun s hs => hall s (List.mem_cons_of_mem _ hs)
      dsimp only at hmem
      split at hmem
      · split at hmem
        · simp at hmem
        · simp only [List.mem_cons, reduceCtorEq, false_or] at hmem
          exact hinner rest hrest hmem
      · split at hmem
        · simp only [List.mem_cons, reduceCtorEq, false_or] at hmem
          exact hinner rest hrest hmem
        · rcases List.mem_cons.1 hmem with hmem | hmem
          · exact hsegment first hmem (hall first (by simp))
          · exact hinner rest hrest hmem
  · simp

end Path

namespace Dependency

/-- The digest that a scratch name holds. -/
def pathDigest (p : Path) : List UInt8 := (Sha256.digest (Text.Utf8.encode p.text)).take digestBytes

theorem toList_scratchName (p : Path) :
    (scratchName p).toList = ['i', 'm', 'p', 'o', 'r', 't', 'e', 'd', '_'] ++
      (Text.Hex.encode (pathDigest p) ++ '_' :: p.fileName.toList) := by
  simp [scratchName, pathDigest, scratchStart, String.toList_append]

theorem isName_scratchName (p : Path) : Path.IsName (scratchName p) := by
  have hslash : '/' ∉ Text.Hex.encode (pathDigest p) := Text.Hex.not_mem_encode (by decide) _
  refine ⟨?_, ?_, ?_⟩
  · simp [toList_scratchName, hslash, p.not_slash_of_fileName]
  · simp [toList_scratchName, Path.isIdle]
  · simp [toList_scratchName]

theorem length_pathDigest (p : Path) : (pathDigest p).length = digestBytes := by
  simp [pathDigest, Sha256.digest, Sha256.octets, digestBytes]

/-- What a scratch name holds beside the name of the file, in octets: the start, the digits of the
digest and a sign between them and the name. -/
def scratchOverhead : Nat := scratchStart.length + 2 * digestBytes + 1

theorem utf8Size_scratchName (p : Path) :
    Text.utf8Size (scratchName p).toList = scratchOverhead + Text.utf8Size p.fileName.toList := by
  have hstart : Text.utf8Size ['i', 'm', 'p', 'o', 'r', 't', 'e', 'd', '_'] = scratchStart.length := by
    decide
  have hsign : ('_').utf8Size = 1 := by decide
  rw [toList_scratchName, Text.utf8Size_append, hstart, Text.utf8Size_append, Text.Hex.utf8Size_encode,
    length_pathDigest, Text.utf8Size_cons, hsign, scratchOverhead]
  omega

theorem pathDigest_of_scratchName {p q : Path} (h : scratchName p = scratchName q) :
    pathDigest p = pathDigest q := by
  have hp : '_' ∉ Text.Hex.encode (pathDigest p) := Text.Hex.not_mem_encode (by decide) _
  have hq : '_' ∉ Text.Hex.encode (pathDigest q) := Text.Hex.not_mem_encode (by decide) _
  have htext := congrArg String.toList h
  rw [toList_scratchName, toList_scratchName] at htext
  obtain ⟨hdigits, -⟩ := Text.append_cons_inj hp hq (List.append_cancel_left htext)
  exact (Text.Hex.encode_injective hdigits).symm

end Dependency

end Galley
