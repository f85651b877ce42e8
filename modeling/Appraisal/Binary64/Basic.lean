import Appraisal.Text.Numeral

/-!
# Binary floating-point numbers

A finite number is a sign, a significand below `2 ^ 53` and a scale; its value is
`± significand · 2 ^ scale / 2 ^ 1074`.  The significand has its full 53 bits unless the scale is zero, so
every value has one representation, apart from the two zeros.  Sums and quotients are the exact results
rounded to the nearest number, a half to the even significand.
-/

namespace Appraisal

/-- A binary floating-point number of 64 bits. -/
inductive Binary64 where
  /-- The number `± significand · 2 ^ scale / 2 ^ 1074`. -/
  | finite (negative : Bool) (significand scale : Nat)
  | infinite (negative : Bool)
  | nan
  deriving DecidableEq, Repr, Inhabited

namespace Binary64

/-- The largest scale of a finite number. -/
def maxScale : Nat := 2045

/-- The number of units `2 ^ -1074` per one. -/
def unitsPerOne : Nat := twoTo 1074

/-- Positive zero. -/
def zero : Binary64 := finite false 0 0

/-- `n / d` rounded to the nearest integer, a half to the even one. -/
def nearestQuotient (n d : Nat) : Nat :=
  let quotient := n / d
  let remainder := n % d
  if d < 2 * remainder ∨ (d = 2 * remainder ∧ quotient % 2 = 1) then quotient + 1 else quotient

/-- The number nearest to `± n / d` units, for a positive `d`. -/
def ofUnits (negative : Bool) (n d : Nat) : Binary64 :=
  let quotient := n / d
  let scale := if quotient < twoTo 53 then 0 else Nat.log2 quotient - 52
  let significand := nearestQuotient n (d * twoTo scale)
  let carried := decide (significand = twoTo 53)
  let scale := if carried then scale + 1 else scale
  if maxScale < scale then infinite negative
  else finite negative (if carried then twoTo 52 else significand) scale

/-- The number nearest to `± n / d`, for a positive `d`. -/
def ofRatio (negative : Bool) (n d : Nat) : Binary64 :=
  ofUnits negative (n * unitsPerOne) d

/-- The number nearest to an integer. -/
def ofInt (n : Int) : Binary64 :=
  ofRatio (decide (n < 0)) n.natAbs 1

/-- The number nearest to `± coefficient · 10 ^ exponent`.

Exponents that lie far outside of the range are decided without computing the power. -/
def ofScientific (negative : Bool) (coefficient : Nat) (exponent : Int) : Binary64 :=
  if coefficient = 0 then finite negative 0 0
  else
    let leading := (Nat.log2 coefficient : Int) / 4 + exponent
    if 310 < leading then infinite negative
    else if (Nat.log2 coefficient : Int) + 1 + exponent < -400 then finite negative 0 0
    else ofRatio negative (coefficient * tenTo exponent.toNat) (tenTo (-exponent).toNat)

/-- Neither infinite nor undefined. -/
def isFinite : Binary64 → Bool
  | finite .. => true
  | _ => false

/-- The value of a finite number in units of `2 ^ -1074`. -/
def units (negative : Bool) (significand scale : Nat) : Int :=
  if negative then -((significand * twoTo scale : Nat) : Int) else (significand * twoTo scale : Nat)

/-- The sum of two numbers. -/
def add : Binary64 → Binary64 → Binary64
  | finite s m p, finite t n q =>
      let total := units s m p + units t n q
      if total = 0 then finite (s && t) 0 0
      else ofUnits (decide (total < 0)) total.natAbs 1
  | infinite s, infinite t => if s = t then infinite s else nan
  | infinite s, finite .. => infinite s
  | finite .., infinite t => infinite t
  | _, _ => nan

/-- The product with a count. -/
def mulCount (x : Binary64) (count : Nat) : Binary64 :=
  match x with
  | finite s m p => ofUnits s (m * twoTo p * count) 1
  | other => other

/-- The quotient by a positive count. -/
def divCount (x : Binary64) (count : Nat) : Binary64 :=
  match x with
  | finite s m p => ofUnits s (m * twoTo p) count
  | other => other

/-- The order of two numbers, unless one is undefined. -/
def compare? : Binary64 → Binary64 → Option Ordering
  | finite s m p, finite t n q => some (compare (units s m p) (units t n q))
  | infinite s, infinite t => some (if s = t then .eq else if s then .lt else .gt)
  | infinite s, finite .. => some (if s then .lt else .gt)
  | finite .., infinite t => some (if t then .gt else .lt)
  | _, _ => none

/-- The order of a number and an integer, unless the number is undefined. -/
def compareInt? : Binary64 → Int → Option Ordering
  | finite s m p, n => some (compare (units s m p) (n * unitsPerOne))
  | infinite s, _ => some (if s then .lt else .gt)
  | nan, _ => none

/-- The integer nearest to a number that is not negative, a half rounded up; zero if it is not finite. -/
def nearestNat : Binary64 → Nat
  | finite _ m p => (2 * (m * twoTo p) + unitsPerOne) / (2 * unitsPerOne)
  | _ => 0

/-- The integer part of a finite number that has no fractional part. -/
def toInt? : Binary64 → Option Int
  | finite s m p =>
      let n := units s m p
      if n % unitsPerOne = 0 then some (n / unitsPerOne) else none
  | _ => none

end Binary64
end Appraisal
