import Appraisal.Binary64.Basic
import Appraisal.Text.Numeral

/-!
# Floating-point numbers in texts

A floating-point number is written either with the fewest digits that tell it from its neighbours, or rounded to
a precision.
-/

namespace Appraisal

/-!
## The text of a floating-point number

`shortest` finds the fewest decimal digits that still lie within the interval of reals that round to the
number, and of two such candidates the nearer one.  `toText` places the point: positional notation for
exponents from -4 to 15, with `.0` after a whole number, otherwise scientific notation with at least two
digits of exponent.  `fixedChars` rounds the exact value to a number of places, a half to the even digit.
`ofText?` reads plain and scientific notation and the names of the numbers that are not finite.
-/

namespace Binary64

open Text (digitCount numeral signText readSign readScientific?)

/-! ### The fewest digits -/

/-- Digits of a decimal approximation and the exponent of the last one. -/
structure Digits where
  coefficient : Nat
  exponent : Int

/-- A decimal grid beside a number: the number is `value / unit` steps of the grid `10 ^ exponent`, and
the reals that round to it lie between `low / (4 · unit)` and `high / (4 · unit)` steps. -/
structure Grid where
  exponent : Int
  /-- The number, in parts of a step. -/
  value : Nat
  /-- The lower end of the interval, in quarters of a part. -/
  low : Nat
  /-- The upper end of the interval, in quarters of a part. -/
  high : Nat
  unit : Nat

/-- The grid of steps `10 ^ exponent` beside a positive number. -/
def gridAt (significand scale : Nat) (exponent : Int) : Grid :=
  let factor := tenTo (-exponent).toNat * twoTo scale
  let below := if significand = twoTo 52 ∧ 0 < scale then 1 else 2
  { exponent
    value := significand * factor
    low := (4 * significand - below) * factor
    high := (4 * significand + 2) * factor
    unit := unitsPerOne * tenTo exponent.toNat }

/-- Whether a grid point rounds to the number; the ends of the interval do if the significand is even. -/
def Grid.accepts (grid : Grid) (endsIncluded : Bool) (point : Nat) : Bool :=
  let place := 4 * point * grid.unit
  if endsIncluded then decide (grid.low ≤ place) && decide (place ≤ grid.high)
  else decide (grid.low < place) && decide (place < grid.high)

/-- The better of the two grid points beside the number, if one of them rounds to it. -/
def Grid.candidate? (grid : Grid) (endsIncluded : Bool) : Option Digits :=
  let below := grid.value / grid.unit
  let remainder := grid.value % grid.unit
  let upperNearer := decide (grid.unit < 2 * remainder) ||
    (decide (grid.unit = 2 * remainder) && decide (below % 2 = 1))
  match grid.accepts endsIncluded below, grid.accepts endsIncluded (below + 1) with
  | true, true => some ⟨if upperNearer then below + 1 else below, grid.exponent⟩
  | true, false => some ⟨below, grid.exponent⟩
  | false, true => some ⟨below + 1, grid.exponent⟩
  | false, false => none

/-- The exponent of the leading digit of a positive number. -/
def leadingExponent (significand scale : Nat) : Int :=
  (digitCount (significand * twoTo scale * tenTo 400 / unitsPerOne) : Int) - 401

/-- The first of some finer and finer grids that holds a candidate; the value itself if none does. -/
def shortestOn (significand scale : Nat) : List Int → Digits
  | [] => ⟨significand * twoTo scale * Nat.pow 5 1074, -1074⟩
  | exponent :: finer =>
      match (gridAt significand scale exponent).candidate? (significand % 2 == 0) with
      | some digits => digits
      | none => shortestOn significand scale finer

/-- Digits without trailing zeros. -/
def Digits.strip (digits : Digits) : Digits :=
  if digits.coefficient ≠ 0 ∧ digits.coefficient % 10 = 0 then
    Digits.strip ⟨digits.coefficient / 10, digits.exponent + 1⟩
  else digits
termination_by digits.coefficient
decreasing_by
  show digits.coefficient / 10 < digits.coefficient
  omega

/-- The fewest digits that round to a positive number. -/
def shortest (significand scale : Nat) : Digits :=
  let leading := leadingExponent significand scale
  (shortestOn significand scale ((List.range 17).map fun (n : Nat) => leading - n)).strip

/-! ### Writing -/

/-- The text of an exponent, with a sign and at least two digits. -/
def exponentText (exponent : Int) : List Char :=
  let digits := numeral exponent.natAbs
  'e' :: (if exponent < 0 then '-' else '+') :: List.replicate (2 - digits.length) '0' ++ digits

/-- The text of digits with an exponent. -/
def digitsText (digits : Digits) : List Char :=
  let ds := numeral digits.coefficient
  let leading := digits.exponent + ds.length - 1
  if leading < -4 ∨ 16 ≤ leading then
    match ds with
    | [d] => d :: exponentText leading
    | d :: rest => d :: '.' :: rest ++ exponentText leading
    | [] => []
  else if 0 ≤ digits.exponent then
    ds ++ List.replicate digits.exponent.toNat '0' ++ ['.', '0']
  else if 0 ≤ leading then
    ds.take (leading + 1).toNat ++ '.' :: ds.drop (leading + 1).toNat
  else
    ['0', '.'] ++ List.replicate (-leading - 1).toNat '0' ++ ds

/-- The characters of the text of a number. -/
def toChars : Binary64 → List Char
  | finite s m p =>
      signText s ++ if m = 0 then ['0', '.', '0'] else digitsText (shortest m p)
  | infinite s => signText s ++ ['i', 'n', 'f']
  | nan => ['n', 'a', 'n']

/-- The text of a number. -/
def toText (x : Binary64) : String :=
  String.ofList x.toChars

/-- A whole number of parts `10 ^ -places` as a number with that many digits after the point. -/
def fixedText (places parts : Nat) : List Char :=
  let fraction := numeral (parts % tenTo places)
  numeral (parts / tenTo places) ++
    if places = 0 then []
    else '.' :: List.replicate (places - fraction.length) '0' ++ fraction

/-- The characters of a number with some digits after the point. -/
def fixedChars (places : Nat) : Binary64 → List Char
  | finite s m p =>
      signText s ++ fixedText places (nearestQuotient (tenTo places * m * twoTo p) unitsPerOne)
  | other => other.toChars

/-- The number with two digits after the point. -/
def twoPlaces (x : Binary64) : String :=
  String.ofList (x.fixedChars 2)

/-! ### Reading -/

/-- A finite number without its sign. -/
def readFinite? (negative : Bool) (cs : List Char) : Option Binary64 :=
  (readScientific? cs).map fun number => ofScientific negative number.1 number.2

/-- The names of the numbers that are not finite, in small letters. -/
def readName? (negative : Bool) (name : List Char) : Option Binary64 :=
  if name = "nan".toList then some nan
  else if name = "inf".toList ∨ name = "infinity".toList then some (infinite negative)
  else none

/-- The number that a list of characters denotes. -/
def ofChars? (cs : List Char) : Option Binary64 :=
  let (negative, rest) := readSign cs
  match readFinite? negative rest with
  | some x => some x
  | none => readName? negative (rest.map Char.toLower)

/-- The number that a text denotes. -/
def ofText? (text : String) : Option Binary64 :=
  ofChars? text.toList

/-!
## Rounded floating-point numbers

The magnitude of a number with a precision: the digits after the point in fixed and in scientific
notation, all digits in general notation.  General notation is positional for exponents from -4 up to the
precision and scientific beyond.  The exact value is rounded once, a half to the even digit.
-/

open Text (numeral)

/-- How the digits of a number are written. -/
inductive Form where
  | fixed
  | scientific
  | general
  deriving DecidableEq, Repr

/-- Whether a number has a minus sign. -/
def isNegative : Binary64 → Bool
  | finite negative .. => negative
  | infinite negative => negative
  | nan => false

/-- The digits of a positive number rounded to a positive count of them. -/
def roundedDigits (count significand scale : Nat) : Digits :=
  let exponent := leadingExponent significand scale - (count - 1 : Nat)
  let coefficient := nearestQuotient (significand * twoTo scale * tenTo (-exponent).toNat)
    (unitsPerOne * tenTo exponent.toNat)
  if coefficient = tenTo count then ⟨coefficient / 10, exponent + 1⟩ else ⟨coefficient, exponent⟩

/-- A positive count of the leading digits of a magnitude, and the exponent of the first of them. -/
def leadingDigits (count significand scale : Nat) : List Char × Int :=
  if significand = 0 then (List.replicate count '0', 0)
  else
    let digits := roundedDigits count significand scale
    (numeral digits.coefficient, digits.exponent + (count - 1 : Nat))

/-- No number has more digits than this. -/
def mostDigits : Nat := 800

/-- The digits before and after the point, for digits and the exponent of the first of them. -/
def splitAtPoint (digits : List Char) (leading : Int) : List Char × List Char :=
  if leading < 0 then (['0'], List.replicate (-leading - 1).toNat '0' ++ digits)
  else (digits.take (leading + 1).toNat, digits.drop (leading + 1).toNat)

/-- Digits with a point between them; without digits after it, the point is written on demand. -/
def withPoint (always : Bool) (whole fraction : List Char) : List Char :=
  if fraction.isEmpty && !always then whole else whole ++ '.' :: fraction

/-- Digits without the zeros at their end. -/
def withoutLastZeros (digits : List Char) : List Char :=
  (digits.reverse.dropWhile (· == '0')).reverse

/-- A magnitude in fixed notation. -/
def fixedMagnitude (full : Bool) (places significand scale : Nat) : List Char :=
  fixedText places (nearestQuotient (tenTo places * significand * twoTo scale) unitsPerOne) ++
    if places = 0 ∧ full then ['.'] else []

/-- A magnitude in scientific notation. -/
def scientificMagnitude (full : Bool) (places significand scale : Nat) : List Char :=
  let (digits, leading) := leadingDigits (places + 1) significand scale
  withPoint full (digits.take 1) (digits.drop 1) ++ exponentText leading

/-- A magnitude in general notation, with the zeros at the end of the fraction on demand. -/
def generalMagnitude (full : Bool) (precision significand scale : Nat) : List Char :=
  let count := max precision 1
  let (digits, leading) := leadingDigits (if full then count else min count mostDigits)
    significand scale
  let kept (fraction : List Char) := if full then fraction else withoutLastZeros fraction
  if leading < -4 ∨ count ≤ leading then
    withPoint full (digits.take 1) (kept (digits.drop 1)) ++ exponentText leading
  else
    let (whole, fraction) := splitAtPoint digits leading
    withPoint full whole (kept fraction)

/-- The magnitude of a number in a form; a full one keeps its point and the zeros of its precision. -/
def magnitudeChars (form : Form) (full : Bool) (precision : Nat) : Binary64 → List Char
  | finite _ significand scale =>
      match form with
      | .fixed => fixedMagnitude full precision significand scale
      | .scientific => scientificMagnitude full precision significand scale
      | .general => generalMagnitude full precision significand scale
  | infinite _ => ['i', 'n', 'f']
  | nan => ['n', 'a', 'n']

end Binary64

end Appraisal
