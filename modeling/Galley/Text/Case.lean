import Galley.Text.CaseTable

/-!
Upper and lower case of whole texts. One letter may become several, and a capital sigma becomes a
final sigma where it ends a word.
-/

namespace Galley.Text

private def mapped (runs : List CaseRun) (expansions : List (Nat × List Nat)) (c : Char) :
    List Char :=
  match expansions.lookup c.toNat with
  | some ns => ns.map Char.ofNat
  | none => [((CaseRun.find? runs c.toNat).map Char.ofNat).getD c]

def upperChar (c : Char) : List Char :=
  if c.toNat < 0x80 then [c.toUpper]
  else mapped CaseTable.upperRuns CaseTable.upperExpansions c

def lowerChar (c : Char) : List Char :=
  if c.toNat < 0x80 then [c.toLower]
  else mapped CaseTable.lowerRuns CaseTable.lowerExpansions c

private def isCaseIgnorable (c : Char) : Bool := Ranges.mem CaseTable.ignorableBounds c.toNat

/-- Whether the nearest character that is not passed over has a case. -/
private def meetsCased (text : List Char) : Bool :=
  match text.dropWhile isCaseIgnorable with
  | [] => false
  | c :: _ => Ranges.mem CaseTable.casedBounds c.toNat

private def lowerAfter : List Char → List Char → List Char
  | _, [] => []
  | before, c :: text =>
    let lowered :=
      if c = 'Σ' then [if meetsCased before && !meetsCased text then 'ς' else 'σ'] else lowerChar c
    lowered ++ lowerAfter (c :: before) text

def upper (text : String) : String := String.ofList (text.toList.flatMap upperChar)

def lower (text : String) : String := String.ofList (lowerAfter [] text.toList)

end Galley.Text
