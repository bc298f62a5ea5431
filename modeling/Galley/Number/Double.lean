/-!
Binary floating point numbers of 64 bits, held by sign, significand and exponent. Every operation
computes the exact result as a quotient of naturals and rounds once, to nearest, a tie to the even
significand.
-/

namespace Galley

/-- A binary floating point number. A finite one is `± significand · 2 ^ exponent`; it is normal
with `2 ^ 52 ≤ significand < 2 ^ 53`, and subnormal or zero with exponent `-1074`. -/
inductive Double where
  | finite (negative : Bool) (significand : Nat) (exponent : Int)
  | infinity (negative : Bool)
  | nan
deriving DecidableEq, Repr

namespace Double

/-- The least exponent. -/
def minExponent : Int := -1074

/-- The greatest exponent. -/
def maxExponent : Int := 971

def zero (negative : Bool) : Double := .finite negative 0 minExponent

/-- `num / den · 2 ^ shift` as a numerator and a denominator. -/
def scale (num den : Nat) (shift : Int) : Nat × Nat :=
  if 0 ≤ shift then (num * Nat.pow 2 shift.toNat, den)
  else (num, den * Nat.pow 2 (-shift).toNat)

def roundHalfEven (num den : Nat) : Nat :=
  let q := num / den
  let r := num % den
  if 2 * r < den then q else if den < 2 * r then q + 1 else if q % 2 = 0 then q else q + 1

/-- The double nearest to `± num / den`, for a nonzero denominator. -/
def ofRatio (negative : Bool) (num den : Nat) : Double :=
  if num = 0 then zero negative
  else
    let guess := max minExponent ((Nat.log2 num : Int) - Nat.log2 den - 53)
    let scaled := scale num den (-guess)
    let exponent := if Nat.pow 2 53 * scaled.2 ≤ scaled.1 then guess + 1 else guess
    let fitted := scale num den (-exponent)
    let significand := roundHalfEven fitted.1 fitted.2
    let (significand, exponent) :=
      if significand = Nat.pow 2 53 then (Nat.pow 2 52, exponent + 1) else (significand, exponent)
    if maxExponent < exponent then .infinity negative else .finite negative significand exponent

def ofInt (i : Int) : Double := ofRatio (i < 0) i.natAbs 1

/-- The double nearest to `± digits · 10 ^ exponent`. A magnitude far outside the range is cut off
before its power of ten is computed. -/
def ofDecimal (negative : Bool) (digits : Nat) (exponent : Int) : Double :=
  if digits = 0 then zero negative
  else if 400 < (Nat.log2 digits : Int) / 4 + exponent then .infinity negative
  else if (Nat.log2 digits : Int) + 4 * exponent < -4000 then zero negative
  else if 0 ≤ exponent then ofRatio negative (digits * Nat.pow 10 exponent.toNat) 1
  else ofRatio negative digits (Nat.pow 10 (-exponent).toNat)

/-- The double not a number, infinite or zero excluded, as a numerator and a denominator. -/
def magnitude : Double → Nat × Nat
  | .finite _ significand exponent => scale significand 1 exponent
  | _ => (0, 1)

/-- The sign of a number; a zero and an infinity have one too. -/
def isNegative : Double → Bool
  | .finite negative _ _ => negative
  | .infinity negative => negative
  | .nan => false

/-- Neither infinite nor not a number. -/
def isFinite : Double → Bool
  | .finite .. => true
  | _ => false

def isZero : Double → Bool
  | .finite _ significand _ => significand == 0
  | _ => false

def neg : Double → Double
  | .finite negative significand exponent => .finite (!negative) significand exponent
  | .infinity negative => .infinity (!negative)
  | .nan => .nan

/-- The number without its sign. -/
def abs : Double → Double
  | .finite _ significand exponent => .finite false significand exponent
  | .infinity _ => .infinity false
  | .nan => .nan

/-- A finite number as a multiple of `2 ^ exponent`, for an exponent that is not above its own. -/
private def units (negative : Bool) (significand : Nat) (own exponent : Int) : Int :=
  let n : Int := significand * Nat.pow 2 (own - exponent).toNat
  if negative then -n else n

def add : Double → Double → Double
  | .nan, _ | _, .nan => .nan
  | .infinity a, .infinity b => if a = b then .infinity a else .nan
  | .infinity a, _ => .infinity a
  | _, .infinity b => .infinity b
  | .finite na sa ea, .finite nb sb eb =>
    let e := min ea eb
    let sum := units na sa ea e + units nb sb eb e
    if sum = 0 then zero (na && nb)
    else
      let scaled := scale sum.natAbs 1 e
      ofRatio (sum < 0) scaled.1 scaled.2

def sub (a b : Double) : Double := add a (neg b)

def mul : Double → Double → Double
  | .nan, _ | _, .nan => .nan
  | .infinity a, .infinity b => .infinity (a != b)
  | .infinity a, .finite b s _ | .finite b s _, .infinity a =>
    if s = 0 then .nan else .infinity (a != b)
  | .finite na sa ea, .finite nb sb eb =>
    let scaled := scale (sa * sb) 1 (ea + eb)
    ofRatio (na != nb) scaled.1 scaled.2

def div : Double → Double → Double
  | .nan, _ | _, .nan => .nan
  | .infinity _, .infinity _ => .nan
  | .infinity a, .finite b _ _ => .infinity (a != b)
  | .finite a _ _, .infinity b => zero (a != b)
  | .finite na sa ea, .finite nb sb eb =>
    if sb = 0 then if sa = 0 then .nan else .infinity (na != nb)
    else
      let scaled := scale sa sb (ea - eb)
      ofRatio (na != nb) scaled.1 scaled.2

/-- The remainder of the quotient cut to an integer; it has the sign of the dividend. -/
def rem : Double → Double → Double
  | .nan, _ | _, .nan => .nan
  | .infinity _, _ => .nan
  | a, .infinity _ => a
  | .finite na sa ea, .finite _ sb eb =>
    if sb = 0 then .nan
    else
      let e := min ea eb
      let r := (units false sa ea e).natAbs % (units false sb eb e).natAbs
      let scaled := scale r 1 e
      ofRatio na scaled.1 scaled.2

/-- How two numbers compare; nothing compares with not a number. -/
def compare? : Double → Double → Option Ordering
  | .nan, _ | _, .nan => none
  | .infinity a, .infinity b => some (if a = b then .eq else if a then .lt else .gt)
  | .infinity a, _ => some (if a then .lt else .gt)
  | _, .infinity b => some (if b then .gt else .lt)
  | .finite na sa ea, .finite nb sb eb =>
    let e := min ea eb
    some (compare (units na sa ea e) (units nb sb eb e))

/-- Numeric equality: both zeros are equal, and not a number equals nothing. -/
def eqv (a b : Double) : Bool := compare? a b == some .eq

def toInt? : Double → Option Int
  | .finite negative significand exponent =>
    let scaled := scale significand 1 exponent
    let n : Int := (scaled.1 / scaled.2 : Nat)
    some (if negative then -n else n)
  | _ => none

/-- Whether a finite number has no fraction. -/
def isIntegral : Double → Bool
  | .finite _ significand exponent =>
    let scaled := scale significand 1 exponent
    scaled.1 % scaled.2 == 0
  | _ => false

/-- The number with its fraction changed by a rule on the exact quotient; the sign is kept. -/
private def toIntegral (rule : (negative : Bool) → (num den : Nat) → Nat) : Double → Double
  | .finite negative significand exponent =>
    let scaled := scale significand 1 exponent
    ofRatio negative (rule negative scaled.1 scaled.2) 1
  | x => x

def round : Double → Double := toIntegral fun _ num den => (2 * num + den) / (2 * den)

/-- The least integral number that is not below. -/
def ceil : Double → Double :=
  toIntegral fun negative num den => if negative then num / den else (num + den - 1) / den

/-- The greatest integral number that is not above. -/
def floor : Double → Double :=
  toIntegral fun negative num den => if negative then (num + den - 1) / den else num / den

end Double

end Galley
