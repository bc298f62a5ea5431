/-!
The edit distance of two texts: the least number of insertions, deletions and substitutions of
characters that lead from one to the other. A row holds the distances from one text to every
suffix of the other, the longest first.
-/

namespace Galley.Text.EditDistance

def baseRow : List Char → List Nat
  | [] => [0]
  | c :: rest => ((c :: rest).length) :: baseRow rest

/-- The row of a text with `c` in front, from the row without it. -/
def extendRow (c : Char) : List Char → List Nat → List Nat
  | d :: rest, here :: row =>
    let next := extendRow c rest row
    match row, next with
    | diagonal :: _, right :: _ =>
      (if c = d then diagonal else 1 + min diagonal (min here right)) :: next
    | _, _ => next
  | [], here :: _ => [here + 1]
  | _, [] => []

def row (target : List Char) : List Char → List Nat
  | [] => baseRow target
  | c :: rest => extendRow c target (row target rest)

def distance (source target : List Char) : Nat := (row target source).headD 0

end Galley.Text.EditDistance
