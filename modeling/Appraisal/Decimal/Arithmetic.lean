import Appraisal.Text.Numeral

/-!
# Decimal arithmetic

Decimal numbers as they are defined, rounded, compared and calculated with.  An operation yields a number of at most
28 digits or names the condition under which there is none.
-/

namespace Appraisal

/-!
## Decimal numbers

A decimal number keeps its coefficient and its exponent, so `1.50` and `1.5` are two numbers of one
value, and a zero has a sign.  Arithmetic rounds to 28 digits and keeps the exponent of a result within
fixed bounds; the numbers themselves are exact and may lie outside of them.  Beside the finite numbers
there are two infinities and the results of undefined operations.
-/

/-- A decimal number. -/
inductive Decimal where
  /-- The number `± coefficient · 10 ^ exponent`. -/
  | finite (negative : Bool) (coefficient : Nat) (exponent : Int)
  | infinite (negative : Bool)
  /-- No number; a signaling one may not enter an operation. -/
  | nan (negative signaling : Bool) (payload : Nat)
  deriving DecidableEq, Repr, Inhabited

namespace Decimal

/-- Why an operation on decimal numbers has no result. -/
inductive Signal where
  | invalidOperation
  | divisionByZero
  | divisionUndefined
  | overflow
  deriving DecidableEq, Repr

/-- The text of a signal. -/
def Signal.message : Signal → String
  | invalidOperation => "[<class 'decimal.InvalidOperation'>]"
  | divisionByZero => "[<class 'decimal.DivisionByZero'>]"
  | divisionUndefined => "[<class 'decimal.DivisionUndefined'>]"
  | overflow => "[<class 'decimal.Overflow'>]"

/-- The number of digits that arithmetic keeps. -/
def precision : Nat := 28

/-- The largest exponent of a leading digit. -/
def maxExponent : Int := 999999

/-- The smallest exponent of any digit of a result. -/
def leastExponent : Int := -1000026

/-- The integer zero. -/
def zero : Decimal := finite false 0 0

/-- The integer one. -/
def one : Decimal := finite false 1 0

/-- An integer as a decimal number. -/
def ofInt (n : Int) : Decimal :=
  finite (decide (n < 0)) n.natAbs 0

/-- Neither infinite nor undefined. -/
def isFinite : Decimal → Bool
  | finite .. => true
  | _ => false

/-- The number with the other sign. -/
def negate : Decimal → Decimal
  | finite s c e => finite (!s) c e
  | infinite s => infinite (!s)
  | nan s signaling payload => nan (!s) signaling payload

@[simp] theorem isFinite_ofInt (n : Int) : (ofInt n).isFinite = true := rfl

theorem exists_finite {x : Decimal} (h : x.isFinite = true) :
    ∃ negative coefficient exponent, x = finite negative coefficient exponent := by
  cases x with
  | finite negative coefficient exponent => exact ⟨negative, coefficient, exponent, rfl⟩
  | infinite negative => cases h
  | nan negative signaling payload => cases h

/-!
## Rounding to the working precision

Every operation first has an exact result and then rounds it once, to the nearest number with at most
28 digits whose last digit lies at or above the least exponent; a half goes to the even neighbour.  A
result whose leading digit lies above the largest exponent is an overflow.
-/

open Text (digitCount)

/-- The quotient `n / 10 ^ places` rounded to the nearest integer, a half to the even one. -/
def roundQuotient (n places : Nat) : Nat :=
  let unit := tenTo places
  let quotient := n / unit
  let remainder := n % unit
  if unit < 2 * remainder ∨ (unit = 2 * remainder ∧ quotient % 2 = 1) then quotient + 1
  else quotient

/-- Drops the last `places` digits of a coefficient; with more places than digits nothing is left. -/
def dropDigits (coefficient places : Nat) : Nat :=
  if digitCount coefficient < places then 0 else roundQuotient coefficient places

/-- The exponent of the last digit that a result with this coefficient and exponent may keep. -/
def lastKept (coefficient : Nat) (exponent : Int) : Int :=
  max ((digitCount coefficient : Int) + exponent - precision) leastExponent

/-- The exact result `± coefficient · 10 ^ exponent` rounded to the working precision. -/
def round (negative : Bool) (coefficient : Nat) (exponent : Int) : Except Signal Decimal :=
  if coefficient = 0 then
    .ok (finite negative 0 (min (max exponent leastExponent) maxExponent))
  else if maxExponent < digitCount coefficient + exponent - 1 then
    .error .overflow
  else
    let last := lastKept coefficient exponent
    if last ≤ exponent then
      .ok (finite negative coefficient exponent)
    else
      let kept := dropDigits coefficient (last - exponent).toNat
      if kept = tenTo precision then
        if maxExponent < last + precision then .error .overflow
        else .ok (finite negative (tenTo (precision - 1)) (last + 1))
      else
        .ok (finite negative kept last)

/-- A coefficient without trailing zeros, as far as the exponent stays at or below a limit. -/
def stripZeros (limit : Int) (coefficient : Nat) (exponent : Int) : Nat × Int :=
  if coefficient ≠ 0 ∧ coefficient % 10 = 0 ∧ exponent < limit then
    stripZeros limit (coefficient / 10) (exponent + 1)
  else
    (coefficient, exponent)
termination_by coefficient

/-- The digits of an undefined result that are kept. -/
def quietPayload (payload : Nat) : Nat :=
  payload % tenTo precision

theorem round_isFinite {negative : Bool} {coefficient : Nat} {exponent : Int} {x : Decimal}
    (h : round negative coefficient exponent = .ok x) : x.isFinite = true := by
  unfold round at h
  dsimp only at h
  repeat' split at h
  all_goals (cases h <;> rfl)

/-!
## The order of decimal numbers

Numbers are compared by value: `1.50` equals `1.5` and the two zeros are equal.  Magnitudes are compared
by the place of the leading digit first, so that no coefficient is ever padded by more than the digits
of the other.
-/

/-- The order of two positive multiples of powers of ten. -/
def compareMagnitude (c : Nat) (e : Int) (d : Nat) (f : Int) : Ordering :=
  match compare (digitCount c + e) (digitCount d + f) with
  | .eq => compare (c * tenTo (e - f).toNat) (d * tenTo (f - e).toNat)
  | decided => decided

/-- The order of two finite numbers. -/
def compareFinite (s : Bool) (c : Nat) (e : Int) (t : Bool) (d : Nat) (f : Int) : Ordering :=
  match decide (c = 0), decide (d = 0) with
  | true, true => .eq
  | true, false => if t then .gt else .lt
  | false, true => if s then .lt else .gt
  | false, false =>
      match s, t with
      | false, true => .gt
      | true, false => .lt
      | false, false => compareMagnitude c e d f
      | true, true => compareMagnitude d f c e

/-- The order of two numbers, unless one is undefined. -/
def compare? : Decimal → Decimal → Option Ordering
  | finite s c e, finite t d f => some (compareFinite s c e t d f)
  | infinite s, infinite t =>
      some (if s = t then .eq else if s then .lt else .gt)
  | infinite s, finite .. => some (if s then .lt else .gt)
  | finite .., infinite t => some (if t then .gt else .lt)
  | _, _ => none

/-- Whether the order of two numbers passes a test; undefined numbers have no order. -/
def testOrder (x y : Decimal) (test : Ordering → Bool) : Except Signal Bool :=
  match compare? x y with
  | some order => .ok (test order)
  | none => .error .invalidOperation

/-- Whether the first number is smaller. -/
def lt? (x y : Decimal) : Except Signal Bool :=
  testOrder x y (· == .lt)

/-- Whether the first number is at most the second. -/
def le? (x y : Decimal) : Except Signal Bool :=
  testOrder x y (· != .gt)

/-- Whether the number is a zero; only a signaling operand refuses the question. -/
def isZero? : Decimal → Except Signal Bool
  | finite _ c _ => .ok (decide (c = 0))
  | infinite _ => .ok false
  | nan _ false _ => .ok false
  | nan _ true _ => .error .invalidOperation

/-!
## Operations

Sum, difference, product and quotient of decimal numbers.  The exponent of an exact sum is the smaller
one, that of an exact product the sum of both, and an exact quotient is given the difference of both
exponents or the nearest exponent that can hold it.  An undefined operand makes the result undefined,
and a signaling one is refused.
-/

/-- What an operation answers when one of two operands is undefined. -/
def undefinedOperand? : Decimal → Decimal → Option (Except Signal Decimal)
  | nan _ true _, _ => some (.error .invalidOperation)
  | _, nan _ true _ => some (.error .invalidOperation)
  | nan s false payload, _ => some (.ok (nan s false (quietPayload payload)))
  | _, nan s false payload => some (.ok (nan s false (quietPayload payload)))
  | _, _ => none

/-- The coefficient with its sign. -/
def signed (negative : Bool) (coefficient : Nat) : Int :=
  if negative then -(coefficient : Int) else coefficient

/-- The sum of two multiples of powers of ten, the first with the larger exponent.

A second number that lies far below the last digit that can be kept only decides the direction of
rounding; a single digit in its place decides it in the same way and keeps the coefficient short. -/
def sumAligned (high : Int) (highExponent : Int) (low : Int) (lowExponent : Int) : Int × Int :=
  let least := highExponent + min (-1) ((digitCount high.natAbs : Int) - precision - 2)
  if high = 0 then
    (low, lowExponent)
  else if digitCount low.natAbs + lowExponent - 1 < least then
    (high * tenTo (highExponent - least).toNat + low.sign, least)
  else
    (high * tenTo (highExponent - lowExponent).toNat + low, lowExponent)

/-- The sum of two decimal numbers. -/
def add (x y : Decimal) : Except Signal Decimal :=
  match undefinedOperand? x y with
  | some answer => answer
  | none =>
      match x, y with
      | infinite s, infinite t =>
          if s = t then .ok (infinite s) else .error .invalidOperation
      | infinite s, _ => .ok (infinite s)
      | _, infinite t => .ok (infinite t)
      | finite s c e, finite t d f =>
          let total :=
            if f ≤ e then sumAligned (signed s c) e (signed t d) f
            else sumAligned (signed t d) f (signed s c) e
          if total.1 = 0 then round (s && t) 0 total.2
          else round (decide (total.1 < 0)) total.1.natAbs total.2
      | _, _ => .error .invalidOperation

/-- The difference of two decimal numbers. -/
def sub (x y : Decimal) : Except Signal Decimal :=
  match undefinedOperand? x y with
  | some answer => answer
  | none => add x y.negate

/-- The product of two decimal numbers. -/
def mul (x y : Decimal) : Except Signal Decimal :=
  match undefinedOperand? x y with
  | some answer => answer
  | none =>
      match x, y with
      | finite s c e, finite t d f => round (s ^^ t) (c * d) (e + f)
      | infinite s, finite t d _ =>
          if d = 0 then .error .invalidOperation else .ok (infinite (s ^^ t))
      | finite s c _, infinite t =>
          if c = 0 then .error .invalidOperation else .ok (infinite (s ^^ t))
      | infinite s, infinite t => .ok (infinite (s ^^ t))
      | _, _ => .error .invalidOperation

/-- The quotient of two positive coefficients, with enough digits that rounding it rounds the exact
quotient.

An inexact quotient never ends in a digit that would look like a half or like an exact result. -/
def quotientDigits (c : Nat) (e : Int) (d : Nat) (f : Int) : Nat × Int :=
  let shift : Int := (digitCount d : Int) - digitCount c + precision + 1
  let dividend := c * tenTo shift.toNat
  let divisor := d * tenTo (-shift).toNat
  let quotient := dividend / divisor
  if dividend % divisor = 0 then
    stripZeros (e - f) quotient (e - f - shift)
  else
    (if quotient % 5 = 0 then quotient + 1 else quotient, e - f - shift)

/-- The quotient of two decimal numbers. -/
def div (x y : Decimal) : Except Signal Decimal :=
  match undefinedOperand? x y with
  | some answer => answer
  | none =>
      match x, y with
      | finite s c e, finite t d f =>
          if d = 0 then
            .error (if c = 0 then .divisionUndefined else .divisionByZero)
          else if c = 0 then
            round (s ^^ t) 0 (e - f)
          else
            let quotient := quotientDigits c e d f
            round (s ^^ t) quotient.1 quotient.2
      | infinite s, finite t _ _ => .ok (infinite (s ^^ t))
      | finite s _ _, infinite t => .ok (finite (s ^^ t) 0 leastExponent)
      | _, _ => .error .invalidOperation

/-- The sum of a list, added up from zero in order. -/
def sum (xs : List Decimal) : Except Signal Decimal :=
  xs.foldlM add zero

/-- The product of a list, multiplied up from one in order. -/
def product (xs : List Decimal) : Except Signal Decimal :=
  xs.foldlM mul one

/-- The number rounded to the working precision, without trailing zeros; a zero loses its exponent. -/
def normalize : Decimal → Except Signal Decimal
  | finite s c e =>
      match round s c e with
      | .ok (finite s 0 _) => .ok (finite s 0 0)
      | .ok (finite s c e) =>
          let stripped := stripZeros maxExponent c e
          .ok (finite s stripped.1 stripped.2)
      | answer => answer
  | infinite s => .ok (infinite s)
  | nan _ true _ => .error .invalidOperation
  | nan s false payload => .ok (nan s false (quietPayload payload))

end Decimal

end Appraisal
