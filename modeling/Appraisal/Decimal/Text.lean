import Appraisal.Decimal.Arithmetic
import Appraisal.Text.Character
import Appraisal.Text.Numeral

/-!
# The text of a decimal number

`toText` writes the coefficient and the exponent so that both can be read back: positional notation when
the exponent is not positive and at most six zeros follow the point before the first digit, otherwise
scientific notation with one digit before the point.  `ofText?` reads either notation in a wider form:
blanks around the number, underscores between digits, the decimal digits of every script, and names for
the numbers that are not finite.
-/

namespace Appraisal
namespace Decimal

open Text (numeral readDigits digitChar digitValue? isBlank trim signText readSign readScientific?)

/-! ## Writing -/

/-- Digits with the point after the first `places` of them; missing digits are zeros. -/
def placePoint (digits : List Char) (places : Int) : List Char :=
  if places ≤ 0 then
    ['0', '.'] ++ List.replicate (-places).toNat '0' ++ digits
  else if digits.length ≤ places then
    digits ++ List.replicate (places.toNat - digits.length) '0'
  else
    digits.take places.toNat ++ '.' :: digits.drop places.toNat

/-- An exponent with its sign. -/
def exponentText (exponent : Int) : List Char :=
  'E' :: (if exponent < 0 then '-' else '+') :: numeral exponent.natAbs

/-- The text of a coefficient with an exponent. -/
def finiteText (coefficient : Nat) (exponent : Int) : List Char :=
  let digits := numeral coefficient
  let places := exponent + digits.length
  if exponent ≤ 0 ∧ -6 < places then
    placePoint digits places
  else if places = 1 then
    placePoint digits 1
  else
    placePoint digits 1 ++ exponentText (places - 1)

/-- The characters of the text of a number. -/
def toChars : Decimal → List Char
  | finite s c e => signText s ++ finiteText c e
  | infinite s => signText s ++ "Infinity".toList
  | nan s signaling payload =>
      signText s ++ (if signaling then "sNaN".toList else "NaN".toList) ++
        (if payload = 0 then [] else numeral payload)

/-- The text of a number. -/
def toText (x : Decimal) : String :=
  String.ofList x.toChars

/-! ## Reading -/

/-- The largest exponent of a leading digit that a text may ask for. -/
def maxTextExponent : Int := 999999999999999999

/-- The smallest exponent of a last digit that a text may ask for. -/
def leastTextExponent : Int := -1999999999999999997

/-- A text without the blanks around it and without underscores, in plain digits. -/
def plainDigits (cs : List Char) : List Char :=
  ((trim isBlank cs).filter (· ≠ '_')).map fun c =>
    match digitValue? c with
    | some d => digitChar d
    | none => c

/-- A finite number, unless its digits lie outside of the range that a text may use. -/
def inTextRange? (negative : Bool) (coefficient : Nat) (exponent : Int) : Option Decimal :=
  let leading := if coefficient = 0 then exponent else Text.digitCount coefficient + exponent - 1
  if leading ≤ maxTextExponent ∧ leastTextExponent ≤ exponent then
    some (finite negative coefficient exponent)
  else none

/-- A finite number without its sign. -/
def readFinite? (negative : Bool) (cs : List Char) : Option Decimal :=
  match readScientific? cs with
  | some (coefficient, exponent) => inTextRange? negative coefficient exponent
  | none => none

/-- The names of the numbers that are not finite, in small letters. -/
def readName? (negative : Bool) (cs : List Char) : Option Decimal :=
  let name := cs.takeWhile fun c => !c.isDigit
  let payload := cs.dropWhile fun c => !c.isDigit
  if !payload.all Char.isDigit then none
  else if name = "nan".toList then some (nan negative false (readDigits payload))
  else if name = "snan".toList then some (nan negative true (readDigits payload))
  else if payload ≠ [] then none
  else if name = "inf".toList ∨ name = "infinity".toList then some (infinite negative)
  else none

/-- The number that a list of characters denotes. -/
def ofChars? (cs : List Char) : Option Decimal :=
  let (negative, rest) := readSign (plainDigits cs)
  match readFinite? negative rest with
  | some x => some x
  | none => readName? negative (rest.map Char.toLower)

/-- The number that a text denotes. -/
def ofText? (text : String) : Option Decimal :=
  ofChars? text.toList

/-! ## Positional notation -/

/-- Whether `coefficient · 10 ^ exponent` has no fractional part.

Only an exponent that leaves a digit of the coefficient before the point calls for a division. -/
def isWholeMultiple (coefficient : Nat) (exponent : Int) : Bool :=
  decide (0 ≤ exponent) || decide (coefficient = 0) ||
    (decide (-exponent ≤ Text.digitCount coefficient) &&
      decide (coefficient % tenTo (-exponent).toNat = 0))

/-- Whether the number has no fractional part; only a signaling operand refuses the question. -/
def isWhole? : Decimal → Except Signal Bool
  | finite _ c e => .ok (isWholeMultiple c e)
  | infinite _ => .ok true
  | nan _ false _ => .ok false
  | nan _ true _ => .error .invalidOperation

/-- A number without fractional digits in positional notation. -/
def wholeText : Decimal → String
  | finite s c e =>
      String.ofList (signText s ++ numeral c ++ List.replicate (if c = 0 then 0 else e.toNat) '0')
  | x => x.toText

/-- A number as it is shown in a calculation: a whole number in positional notation without an exponent,
any other as its text. -/
def shown (x : Decimal) : Except Signal String := do
  if ← x.isWhole? then
    return wholeText (← x.normalize)
  else
    return x.toText

end Decimal
end Appraisal
