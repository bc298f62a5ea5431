import Galley.Number.Double

/-!
The shortest decimal that reads back as a given double, and of the shortest ones the nearest.
The reals that round to the double form an interval; on the grids of decimals with 1, 2, … digits
the first one with a point in the interval gives the answer.
-/

namespace Galley.Shortest

/-- A decimal `digits · 10 ^ exponent`. -/
structure Decimal where
  digits : Nat
  exponent : Int
deriving DecidableEq, Repr

/-- The reals that round to a double, times `4 / unit`: from `low` to `high`, the ends included when
`closed`, around `centre`. -/
structure Interval where
  low : Nat
  centre : Nat
  high : Nat
  closed : Bool
  /-- The exponent of two of the unit. -/
  unit : Int

/-- The interval of a positive double. Below a power of two the neighbour is half as far. -/
def Interval.of (significand : Nat) (exponent : Int) : Interval where
  low :=
    if significand = Nat.pow 2 52 && Double.minExponent < exponent then 4 * significand - 1
    else 4 * significand - 2
  centre := 4 * significand
  high := 4 * significand + 2
  closed := significand % 2 == 0
  unit := exponent - 2

/-- Units and powers of ten on a common scale: how many parts a unit has, and how many `10 ^ p`. -/
private def scales (unit p : Int) : Nat × Nat :=
  (Nat.pow 2 unit.toNat * Nat.pow 10 (-p).toNat, Nat.pow 2 (-unit).toNat * Nat.pow 10 p.toNat)

/-- Whether `n · 10 ^ p` lies in the interval. -/
def Interval.mem (i : Interval) (n : Nat) (p : Int) : Bool :=
  let (u, t) := scales i.unit p
  let x := n * t
  if i.closed then i.low * u ≤ x && x ≤ i.high * u else i.low * u < x && x < i.high * u

/-- The multiple of `10 ^ p` in the interval that is nearest to the centre, of the two beside it. -/
def Interval.nearest? (i : Interval) (p : Int) : Option Nat :=
  let (u, t) := scales i.unit p
  let below := i.centre * u / t
  let above := below + 1
  match i.mem below p, i.mem above p with
  | true, true =>
    let down := i.centre * u - below * t
    let up := above * t - i.centre * u
    some (if down < up || (down == up && below % 2 == 0) then below else above)
  | true, false => some below
  | false, true => some above
  | false, false => none

/-- The position of the leading digit of `num / den`: the greatest `p` with `10 ^ p ≤ num / den`,
sought downwards from a bound. -/
private def leading (num den : Nat) : Nat → Int → Int
  | 0, p => p
  | fuel + 1, p =>
    if den * Nat.pow 10 p.toNat ≤ num * Nat.pow 10 (-p).toNat then p else leading num den fuel (p - 1)

/-- The decimal without trailing zeros. -/
private def strip : Nat → Decimal → Decimal
  | 0, d => d
  | fuel + 1, d =>
    if d.digits ≠ 0 && d.digits % 10 == 0 then strip fuel ⟨d.digits / 10, d.exponent + 1⟩ else d

/-- The first grid, from `count` digits on, with a point in the interval. -/
private def search (i : Interval) (top : Int) : Nat → Nat → Decimal
  | 0, _ => ⟨i.centre, 0⟩
  | fuel + 1, count =>
    let p := top - count + 1
    match i.nearest? p with
    | some n => strip 20 ⟨n, p⟩
    | none => search i top fuel (count + 1)

/-- The shortest decimal of a positive double. Seventeen digits always suffice. -/
def decimal (significand : Nat) (exponent : Int) : Decimal :=
  let (num, den) := Double.scale significand 1 exponent
  let bound : Int := ((Nat.log2 num : Int) - Nat.log2 den + 1) * 30103 / 100000 + 1
  search (Interval.of significand exponent) (leading num den 4 bound) 17 1

end Galley.Shortest
