import Galley.Text.ClusterTable

/-!
Clusters: the characters that a reader takes for one, such as a letter with its accents, a syllable,
a flag or a joined pictograph. A text is cut between two characters unless a rule holds them together;
the rules look at the two and at a little of what stands before them.
-/

namespace Galley.Text.Cluster

/-- What a character does in a cluster. -/
inductive Role where
  | other
  | carriageReturn
  | lineFeed
  | control
  | extend
  | joiner
  /-- A letter of a region; two of them are a flag. -/
  | regional
  | prepend
  | spacing
  /-- The parts of a syllable block: what leads, the vowel, and what trails. -/
  | leading
  | vowel
  | trailing
  /-- Whole syllable blocks, without something that trails and with it. -/
  | openBlock
  | closedBlock
  | pictograph
  | consonant
deriving DecidableEq, Repr

private def within (ranges : List (Nat × Nat)) (n : Nat) : Bool :=
  ranges.any fun (first, last) => first ≤ n && n ≤ last

def role (c : Char) : Role :=
  let n := c.toNat
  if n = 0x0D then .carriageReturn
  else if n = 0x0A then .lineFeed
  else if n = 0x200D then .joiner
  else if within [(0x1F1E6, 0x1F1FF)] n then .regional
  else if within [(0x1100, 0x115F), (0xA960, 0xA97C)] n then .leading
  else if within [(0x1160, 0x11A7), (0xD7B0, 0xD7C6), (0x16D63, 0x16D63), (0x16D67, 0x16D6A)] n then
    .vowel
  else if within [(0x11A8, 0x11FF), (0xD7CB, 0xD7FB)] n then .trailing
  else if within [(0xAC00, 0xD7A3)] n then
    if (n - 0xAC00) % 28 = 0 then .openBlock else .closedBlock
  else if Ranges.mem ClusterTable.controlBounds n then .control
  else if Ranges.mem ClusterTable.extendBounds n then .extend
  else if Ranges.mem ClusterTable.prependBounds n then .prepend
  else if Ranges.mem ClusterTable.spacingBounds n then .spacing
  else if Ranges.mem ClusterTable.pictographBounds n then .pictograph
  else if Ranges.mem ClusterTable.consonantBounds n then .consonant
  else .other

def isLinker (c : Char) : Bool :=
  ['\u094D', '\u09CD', '\u0ACD', '\u0B4D', '\u0C4D', '\u0D4D'].contains c

/-- How far a group of consonants at the end of a text has come. -/
inductive Conjunct where
  | none
  | begun
  | linked
deriving DecidableEq, Repr

/-- What the rules need of the text that has been read. -/
structure Seen where
  /-- The role of the last character. -/
  last : Role
  /-- Whether an odd number of region letters stands at the end. -/
  halfFlag : Bool
  /-- Whether a pictograph stands at the end, perhaps with marks after it. -/
  pictured : Bool
  /-- Whether a joiner stands at the end, after a pictograph with its marks. -/
  joined : Bool
  conjunct : Conjunct
deriving DecidableEq, Repr

def Seen.start : Seen := ⟨.other, false, false, false, .none⟩

def Seen.next (s : Seen) (c : Char) : Seen where
  last := role c
  halfFlag := role c = .regional && !s.halfFlag
  pictured := role c = .pictograph || (role c = .extend && s.pictured)
  joined := role c = .joiner && s.pictured
  conjunct :=
    if role c = .consonant then .begun
    else if isLinker c then if s.conjunct = .none then .none else .linked
    else if role c = .joiner || (role c = .extend && c ≠ '\u200C') then s.conjunct
    else .none

def Seen.holds (s : Seen) (next : Role) : Bool :=
  match s.last, next with
  | .carriageReturn, .lineFeed => true
  | .control, _ | .carriageReturn, _ | .lineFeed, _ => false
  | _, .control | _, .carriageReturn | _, .lineFeed => false
  | .leading, .leading | .leading, .vowel | .leading, .openBlock | .leading, .closedBlock => true
  | .openBlock, .vowel | .openBlock, .trailing | .vowel, .vowel | .vowel, .trailing => true
  | .closedBlock, .trailing | .trailing, .trailing => true
  | _, .extend | _, .joiner | _, .spacing => true
  | .prepend, _ => true
  | _, .consonant => s.conjunct = .linked
  | .joiner, .pictograph => s.joined
  | .regional, .regional => s.halfFlag
  | _, _ => false

/-- The clusters of a text after what was seen, `current` in reverse being the one that is open. -/
def clustersAfter (s : Seen) (current : List Char) : List Char → List (List Char)
  | [] => if current.isEmpty then [] else [current.reverse]
  | c :: text =>
    if current.isEmpty || s.holds (role c) then clustersAfter (s.next c) (c :: current) text
    else current.reverse :: clustersAfter (s.next c) [c] text

def clusters (text : List Char) : List (List Char) := clustersAfter .start [] text

theorem flatten_clustersAfter (s : Seen) (current text : List Char) :
    (clustersAfter s current text).flatten = current.reverse ++ text := by
  induction text generalizing s current with
  | nil =>
    simp only [clustersAfter]
    split
    · next h => simp [List.isEmpty_iff.1 h]
    · simp
  | cons c text ih =>
    simp only [clustersAfter]
    split
    · simp [ih]
    · simp [ih]

theorem flatten_clusters (text : List Char) : (clusters text).flatten = text := by
  simp [clusters, flatten_clustersAfter]

end Galley.Text.Cluster
