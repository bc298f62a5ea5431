import Galley.Number.Shortest

/-!
Number texts: which decimals are written with a point and which with an exponent.
-/

namespace Galley

/-- The decisions of a number format. The exponent is that of the first digit. -/
structure NumberLayout where
  /-- The least exponent written with a point, when there is one. -/
  pointFrom : Option Int
  /-- The greatest exponent written with a point, when there is one. -/
  pointTo : Option Int
  /-- Whether an integral number keeps `.0`. -/
  keepsPoint : Bool
  /-- Whether a positive exponent has a sign. -/
  plusSign : Bool

namespace NumberLayout

/-- Values are written as data: positional for exponents -5 to 15, `1.0`, `1e+16`. -/
def data : NumberLayout := ⟨some (-5), some 15, true, true⟩

/-- A template prints numbers without an exponent, and integral ones without a point. -/
def printed : NumberLayout := ⟨none, none, false, false⟩

/-- In a listing of an expression, numbers are positional for exponents -4 to 15: `1.0`, `1e16`. -/
def listed : NumberLayout := ⟨some (-4), some 15, true, false⟩

/-- The digits of a decimal with a point after the digit at position `first`, counted from the front
and possibly before or behind all digits. -/
def positional (keepsPoint : Bool) (digits : List Char) (first : Int) : List Char :=
  let zeros (n : Int) : List Char := List.replicate n.toNat '0'
  if first < 0 then ['0', '.'] ++ zeros (-first - 1) ++ digits
  else
    let whole := digits.take (first.toNat + 1)
    let whole := whole ++ zeros (first + 1 - whole.length)
    let fraction := digits.drop (first.toNat + 1)
    if fraction.isEmpty then whole ++ (if keepsPoint then ['.', '0'] else [])
    else whole ++ '.' :: fraction

/-- The digits of a decimal with a point after the first and the exponent behind. -/
def scientific (plusSign : Bool) (digits : List Char) (first : Int) : List Char :=
  let mantissa :=
    match digits with
    | [] => []
    | [d] => [d]
    | d :: rest => d :: '.' :: rest
  mantissa ++ 'e' :: (if plusSign && 0 ≤ first then ['+'] else []) ++ (toString first).toList

def text (layout : NumberLayout) : Double → String
  | .nan => "NaN"
  | .infinity negative => if negative then "-inf" else "inf"
  | .finite negative significand exponent =>
    let decimal := if significand = 0 then ⟨0, 0⟩ else Shortest.decimal significand exponent
    let digits := Nat.toDigits 10 decimal.digits
    let first : Int := decimal.exponent + digits.length - 1
    let isPositional :=
      significand = 0 || (layout.pointFrom.all (· ≤ first) && layout.pointTo.all (first ≤ ·))
    let body :=
      if isPositional then positional layout.keepsPoint digits first
      else scientific layout.plusSign digits first
    String.ofList (if negative then '-' :: body else body)

end NumberLayout

end Galley
