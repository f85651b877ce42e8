import Appraisal.Binary64.Text
import Appraisal.Failure.Basic
import Appraisal.Payload.Basic

/-!
# Values in templates

A placeholder asks by its letter for a value in one way of writing, a `Conversion`, and by its flags,
width and precision for a `Layout`.  A number is a sign, the mark of its base and digits, so that zeros
can be filled in before the digits; any other value is a text that the precision cuts.
-/

namespace Appraisal
namespace Template

open Text (digitCount)

/-! ## Layouts -/

/-- How a value is placed. -/
structure Layout where
  leftward : Bool
  zeros : Bool
  /-- Whether a number shows its base, its point and its last zeros. -/
  full : Bool
  plus : List Char
  width : Nat
  precision : Option Nat

/-- A value in characters. -/
inductive Written where
  | text (chars : List Char)
  | number (negative : Bool) (mark digits : List Char)

/-- The layout of some flags, a width and a precision; a negative width places the value at the left. -/
def Layout.ofFlags (flags : List Char) (width : Int) (precision : Option Nat) : Layout :=
  { leftward := decide ('-' ∈ flags) || decide (width < 0)
    zeros := '0' ∈ flags
    full := '#' ∈ flags
    plus := if '+' ∈ flags then ['+'] else if ' ' ∈ flags then [' '] else []
    width := width.natAbs
    precision }

/-- The characters of a text up to the precision. -/
def Layout.cut (layout : Layout) (chars : List Char) : Written :=
  match layout.precision with
  | some most => .text (chars.take most)
  | none => .text chars

/-- The largest width for which there is room. -/
def mostWidth : Nat := tenTo 10

/-- A value filled up to the width. -/
def Layout.place (layout : Layout) (written : Written) : Except Failure (List Char) :=
  let (front, body) := match written with
    | .text chars => ([], chars)
    | .number negative mark digits => ((if negative then ['-'] else layout.plus) ++ mark, digits)
  let fillsZeros := match written with
    | .text _ => false
    | .number .. => layout.zeros
  let gap := layout.width - (front.length + body.length)
  if mostWidth < layout.width then .error (.raised "MemoryError" "")
  else if layout.leftward then .ok (front ++ body ++ List.replicate gap ' ')
  else if fillsZeros then .ok (front ++ List.replicate gap '0' ++ body)
  else .ok (List.replicate gap ' ' ++ front ++ body)

/-! ## Numbers -/

/-- The largest number of digits of an integer in decimal notation. -/
def mostIntegerDigits : Nat := 4300

/-- The largest precision of an integer. -/
def mostIntegerPrecision : Nat := twoTo 31 - 4

/-- What is said of an integer with too many digits. -/
def tooManyDigits : String :=
  "Exceeds the limit (4300 digits) for integer string conversion; " ++
    "use sys.set_int_max_str_digits() to increase the limit"

/-- The integer part of a finite decimal number.

Of an exponent that alone makes too many digits only so much is kept. -/
def decimalPart (negative : Bool) (coefficient : Nat) (exponent : Int) : Int :=
  let magnitude := coefficient * tenTo (min exponent.toNat mostIntegerDigits) /
    tenTo (min (-exponent).toNat (digitCount coefficient))
  if negative then -(magnitude : Int) else magnitude

/-- The integer part of a number. -/
def integerPart (letter : Char) : Payload → Except Failure Int
  | .int n => .ok n
  | .bool value => .ok value.toInt
  | .float (.finite negative significand scale) =>
      .ok ((Binary64.units negative significand scale).tdiv Binary64.unitsPerOne)
  | .float (.infinite _) => .error (.outOfRange "cannot convert float infinity to integer")
  | .float .nan => .error (.wrongValue "cannot convert float NaN to integer")
  | .decimal (.finite negative coefficient exponent) =>
      .ok (decimalPart negative coefficient exponent)
  | .decimal (.infinite _) => .error (.outOfRange "cannot convert Infinity to integer")
  | .decimal (.nan ..) => .error (.wrongValue "cannot convert NaN to integer")
  | other =>
      .error (.wrongKind
        ("%" ++ letter.toString ++ " format: a real number is required, not " ++ other.kindName))

/-- The integer itself, for letters that take nothing else. -/
def integerItself (letter : Char) : Payload → Except Failure Int
  | .int n => .ok n
  | .bool value => .ok value.toInt
  | other =>
      .error (.wrongKind
        ("%" ++ letter.toString ++ " format: an integer is required, not " ++ other.kindName))

/-- An integer to a base, with zeros in front up to the precision. -/
def Layout.integer (layout : Layout) (base : Nat) (mark : List Char) (n : Int) :
    Except Failure Written :=
  if mostIntegerPrecision < layout.precision.getD 0 then
    .error (.outOfRange "precision too large")
  else if base = 10 ∧ mostIntegerDigits < digitCount n.natAbs then
    .error (.wrongValue tooManyDigits)
  else
    let digits := Nat.toDigits base n.natAbs
    let zeros := List.replicate (layout.precision.getD 0 - digits.length) '0'
    .ok (.number (decide (n < 0)) (if layout.full then mark else []) (zeros ++ digits))

/-- The floating-point number of a value. -/
def realNumber (value : Payload) : Except Failure Binary64 :=
  match value.real?, value with
  | some x, _ => .ok x
  | none, .int _ => .error (.outOfRange "int too large to convert to float")
  | none, .decimal _ => .error (.wrongValue "cannot convert signaling NaN to float")
  | none, _ => .error (.wrongKind ("must be real number, not " ++ value.kindName))

/-- A floating-point number; without a precision it has six digits. -/
def Layout.real (layout : Layout) (form : Binary64.Form) (x : Binary64) : Written :=
  .number x.isNegative [] (x.magnitudeChars form layout.full (layout.precision.getD 6))

/-! ## Characters -/

/-- The character of a code point. -/
def ofCodePoint (n : Int) : Except Failure Char :=
  if 0 ≤ n ∧ n < 0x110000 then .ok (Char.ofNat n.toNat)
  else .error (.outOfRange "%c arg not in range(0x110000)")

/-- The character of a code point or of a text with no other. -/
def character : Payload → Except Failure Char
  | .int n => ofCodePoint n
  | .bool value => ofCodePoint value.toInt
  | .text value =>
      match value.toList with
      | [c] => .ok c
      | _ => .error (.wrongKind "%c requires int or char")
  | _ => .error (.wrongKind "%c requires int or char")

/-! ## Conversions -/

/-- A way of writing a value. -/
inductive Conversion where
  | shown
  | literal
  | plainLiteral
  | whole
  /-- As an integer to a base. -/
  | based (base : Nat)
  | real (form : Binary64.Form)
  | character
  deriving DecidableEq, Repr

/-- The conversion that a letter asks for; letters in capitals write numbers in capitals. -/
def Conversion.ofLetter? : Char → Option Conversion
  | 's' => some shown
  | 'r' => some literal
  | 'a' => some plainLiteral
  | 'd' | 'i' | 'u' => some whole
  | 'o' => some (based 8)
  | 'x' | 'X' => some (based 16)
  | 'e' | 'E' => some (real .scientific)
  | 'f' | 'F' => some (real .fixed)
  | 'g' | 'G' => some (real .general)
  | 'c' => some character
  | _ => none

/-- A value converted for a letter. -/
def Conversion.write (conversion : Conversion) (layout : Layout) (letter : Char)
    (value : Payload) : Except Failure Written :=
  match conversion with
  | shown => .ok (layout.cut value.shown.toList)
  | literal => .ok (layout.cut value.literalChars)
  | plainLiteral => .ok (layout.cut (Text.plainText value.literalChars))
  | whole => do layout.integer 10 [] (← integerPart letter value)
  | based base => do layout.integer base ['0', letter.toLower] (← integerItself letter value)
  | real form => do return layout.real form (← realNumber value)
  | character => do return .text [← Template.character value]

/-- A number with its letters in capitals. -/
def Written.inCapitals : Written → Written
  | text chars => text chars
  | number negative mark digits =>
      number negative (mark.map Char.toUpper) (digits.map Char.toUpper)

/-- What is said of a letter that is none of the known ones. -/
def unknownLetter (letter : Char) (position : Nat) : String :=
  let shown := if 31 ≤ letter.toNat ∧ letter.toNat ≤ 126 then letter else '?'
  "unsupported format character '" ++ shown.toString ++ "' (0x" ++
    String.ofList (Nat.toDigits 16 letter.toNat) ++ ") at index " ++ toString position

/-- A value in the place of a placeholder with a letter at a position. -/
def Layout.show (layout : Layout) (letter : Char) (position : Nat) (value : Payload) :
    Except Failure (List Char) :=
  match Conversion.ofLetter? letter with
  | some conversion => do
      let written ← conversion.write layout letter value
      layout.place (if letter.isUpper then written.inCapitals else written)
  | none => .error (.wrongValue (unknownLetter letter position))

end Template
end Appraisal
