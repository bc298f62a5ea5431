/-!
Sets of code points given by their bounds: the ascending list of the places where the set begins
and ends.
-/

namespace Galley.Text.Ranges

/-- Whether a code point lies in the set with these bounds: it does when it has passed an odd number
of them. -/
def mem : List Nat → Nat → Bool
  | [], _ => false
  | bound :: bounds, n => if n < bound then false else !mem bounds n

theorem mem_pair {first past n : Nat} :
    mem [first, past] n = true ↔ first ≤ n ∧ n < past := by
  simp only [mem]
  split
  · simp; omega
  · split
    · simp; omega
    · simp; omega

end Galley.Text.Ranges
