import Appraisal.Binary64.Text
import Appraisal.Decimal.Arithmetic
import Appraisal.Decimal.Text
import Appraisal.Moment.Reading
import Appraisal.Payload.Basic
import Appraisal.Schema.Reading

/-!
# Reading single values

Texts, numbers, truth values, named options and moments.  Numbers and truth values are also read from
texts, and whole numbers of one kind stand for those of another.  A bound is checked after the value is
read; the upper one comes first.
-/

namespace Appraisal
namespace Schema

open Reading (fault orFault)
open Text (isSpace trim readDigits)

/-! ## Texts and options -/

/-- Reads a text. -/
def text : Reader String
  | .text value => .accepted value
  | _ => fault .textType

/-- Reads a text that is not empty. -/
def nonEmptyText : Reader String := fun payload =>
  (text payload).andThen fun value => orFault (value ≠ "") (.textTooShort 1) value

/-- Reads a text of a bounded number of characters. -/
def textUpTo (most : Nat) : Reader String := fun payload =>
  (text payload).andThen fun value =>
    orFault (value.toList.length ≤ most) (.textTooLong most) value

/-- Reads an option by its name. -/
def option (α : Type) [Named α] : Reader α := fun payload =>
  match Named.ofPayload? payload with
  | some option => .accepted option
  | none => fault (.notListed (Named.names α))

/-- Reads a moment. -/
def moment : Reader Moment := fun payload =>
  .ofCheck (Moment.ofPayload payload)

/-! ## Integers -/

/-- The largest number of digits of an integer that is read from a text. -/
def maxIntDigits : Nat := 4300

/-- Whether a text starts with a minus sign, and the text after it. -/
def splitMinus : List Char → Bool × List Char
  | '-' :: rest => (true, rest)
  | cs => (false, cs)

/-- Whether some characters are digits that do not start with a superfluous zero. -/
def isNumeral : List Char → Bool
  | [] => false
  | c :: rest => c.isDigit && rest.all Char.isDigit && (c != '0' || rest.isEmpty)

/-- The integer that an optional minus sign and a numeral denote, unless there are too many digits. -/
def plainInteger? (cs : List Char) : Option Int :=
  let (negative, digits) := splitMinus cs
  if isNumeral digits ∧ digits.length ≤ maxIntDigits then
    some (if negative then -(readDigits digits : Int) else readDigits digits)
  else none

/-- Whether a text starts with a numeral of too many digits. -/
def isOversized (cs : List Char) : Bool :=
  let digits := (splitMinus cs).2.takeWhile Char.isDigit
  digits.head? != some '0' && decide (maxIntDigits < digits.length)

/-- What is left of a numeral when the zeros and underscores in front are dropped.

The first argument is the one that was dropped last; it is kept when it ends the numeral or a point
follows it. -/
def afterZeros? (last : Char) : List Char → Option (List Char)
  | [] => some [last]
  | c :: rest =>
      if c = '0' ∨ c = '_' then afterZeros? c rest
      else if c.isDigit ∨ c = '-' then some (c :: rest)
      else if c = '.' then some (last :: c :: rest)
      else none

/-- A numeral without leading zeros. -/
def withoutLeadingZeros? : List Char → Option (List Char)
  | [] => none
  | c :: rest =>
      if c = '0' then afterZeros? c rest
      else if c.isDigit then some (c :: rest)
      else none

/-- A numeral without a point that is followed by zeros and nothing else. -/
def withoutZeroFraction (cs : List Char) : List Char :=
  match cs.dropWhile (· ≠ '.') with
  | '.' :: fraction =>
      if fraction ≠ [] ∧ fraction.all (· == '0') then cs.takeWhile (· ≠ '.') else cs
  | _ => cs

/-- Whether underscores stand only alone and between other characters.

The flag says whether the character in front is an underscore or missing. -/
def spacedBy (afterUnderscore : Bool) : List Char → Bool
  | [] => !afterUnderscore
  | c :: rest =>
      if c = '_' then !afterUnderscore && spacedBy true rest else spacedBy false rest

/-- A numeral without the underscores between its digits. -/
def withoutUnderscores? (cs : List Char) : Option (List Char) :=
  if spacedBy true cs then some (cs.filter (· ≠ '_')) else none

/-- A numeral after a plus sign, or the numeral itself. -/
def afterPlus? : List Char → Option (List Char)
  | '+' :: '-' :: _ => none
  | '+' :: rest => some rest
  | cs => some cs

/-- A loosely written integer without the blanks around it, a plus sign, leading zeros, a fraction of
zeros and underscores. -/
def tidied? (cs : List Char) : Option (List Char) := do
  let (negative, rest) := splitMinus (← afterPlus? (trim isSpace cs))
  let digits ← withoutUnderscores? (withoutZeroFraction (← withoutLeadingZeros? rest))
  return Text.signText negative ++ digits

/-- Reads the text of an integer. -/
def integerText (cs : List Char) : Reading Int :=
  if isOversized cs then fault .intSize
  else
    match (plainInteger? cs).or ((tidied? cs).bind plainInteger?) with
    | some n => .accepted n
    | none => fault .intText

/-- Whether an integer is one of those that floating-point numbers stand for. -/
def inFloatRange (n : Int) : Bool :=
  decide (n.natAbs < twoTo 63)

/-- Reads a floating-point number without a fractional part. -/
def integerFloat (x : Binary64) : Reading Int :=
  if !x.isFinite then fault .notFinite
  else
    match x.toInt? with
    | some n => orFault (inFloatRange n) .intSize n
    | none => fault .intFraction

/-- Reads a decimal number without a fractional part. -/
def integerDecimal : Decimal → Reading Int
  | .finite negative coefficient exponent =>
      if coefficient = 0 then .accepted 0
      else if Decimal.isWholeMultiple coefficient exponent then
        let magnitude := coefficient * tenTo exponent.toNat / tenTo (-exponent).toNat
        .accepted (if negative then -(magnitude : Int) else magnitude)
      else fault .intFraction
  | _ => fault .notFinite

/-- Reads an integer. -/
def integer : Reader Int
  | .int n => .accepted n
  | .bool value => .accepted value.toInt
  | .text value => integerText value.toList
  | .float x => integerFloat x
  | .decimal x => integerDecimal x
  | _ => fault .intType

/-- Reads a positive integer. -/
def positiveInteger : Reader Int := fun payload =>
  (integer payload).andThen fun n => orFault (0 < n) (.above 0) n

/-- Reads an integer that is not negative. -/
def natural : Reader Nat := fun payload =>
  (integer payload).andThen fun n => orFault (0 ≤ n) (.atLeast 0) n.toNat

/-! ## Floating-point numbers -/

/-- The floating-point number that a text denotes. -/
def realText? (cs : List Char) : Option Binary64 :=
  (Binary64.ofChars? (trim isSpace cs)).or ((withoutUnderscores? cs).bind Binary64.ofChars?)

/-- Reads a floating-point number. -/
def real : Reader Binary64
  | .text value =>
      match realText? value.toList with
      | some x => .accepted x
      | none => fault .numberText
  | payload =>
      match payload.real? with
      | some x => .accepted x
      | none => fault .numberType

/-- Whether a floating-point number lies above an integer. -/
def isAbove (x : Binary64) (bound : Int) : Bool :=
  x.compareInt? bound == some .gt

/-- Whether a floating-point number does not lie below an integer. -/
def isAtLeast (x : Binary64) (bound : Int) : Bool :=
  isAbove x bound || x.compareInt? bound == some .eq

/-- Whether a floating-point number does not lie above an integer. -/
def isAtMost (x : Binary64) (bound : Int) : Bool :=
  x.compareInt? bound == some .lt || x.compareInt? bound == some .eq

/-- Reads a positive floating-point number. -/
def positiveReal : Reader Binary64 := fun payload =>
  (real payload).andThen fun x => orFault (isAbove x 0) (.above 0) x

/-- Reads a floating-point number that is not negative. -/
def nonNegativeReal : Reader Binary64 := fun payload =>
  (real payload).andThen fun x => orFault (isAtLeast x 0) (.atLeast 0) x

/-- Reads a floating-point number between zero and one. -/
def share : Reader Binary64 := fun payload =>
  (real payload).andThen fun x =>
    (orFault (isAtMost x 1) (.atMost 1) x).andThen fun x => orFault (isAtLeast x 0) (.atLeast 0) x

/-! ## Truth values -/

/-- The texts that stand for false. -/
def falseTexts : List String := ["0", "off", "f", "false", "n", "no"]

/-- The texts that stand for true. -/
def trueTexts : List String := ["1", "on", "t", "true", "y", "yes"]

/-- The text with the plain letters in small letters. -/
def plainLower (text : String) : String :=
  String.ofList (text.toList.map Char.toLower)

/-- Whether an integer has at most 64 bits. -/
def inWordRange (n : Int) : Bool :=
  decide (-(twoTo 63 : Int) ≤ n) && decide (n < twoTo 63)

/-- Reads a truth value given as an integer within a range. -/
def truthInteger (inRange : Int → Bool) (n : Int) : Reading Bool :=
  if n = 0 then .accepted false
  else if n = 1 then .accepted true
  else if inRange n then fault .truthText
  else fault .truthType

/-- Reads a truth value. -/
def truth : Reader Bool
  | .bool value => .accepted value
  | .text value =>
      if plainLower value ∈ trueTexts then .accepted true
      else if plainLower value ∈ falseTexts then .accepted false
      else fault .truthText
  | .int n => truthInteger inWordRange n
  | payload =>
      match payload.real?.bind Binary64.toInt? with
      | some n => truthInteger inFloatRange n
      | none => fault .truthType

/-! ## Decimal numbers -/

/-- The decimal number of a payload, finite or not. -/
def anyDecimal : Reader Decimal
  | .decimal x => .accepted x
  | .int n => .accepted (.ofInt n)
  | .float x =>
      match Decimal.ofChars? x.toChars with
      | some d => .accepted d
      | none => fault .decimalText
  | .text value =>
      match Decimal.ofText? value with
      | some d => .accepted d
      | none => fault .decimalText
  | _ => fault .decimalType

/-- Reads a finite decimal number. -/
def decimal : Reader Decimal := fun payload =>
  (anyDecimal payload).andThen fun x => orFault x.isFinite .notFinite x

/-- Whether the order of two finite numbers passes a test. -/
def passes (test : Except Decimal.Signal Bool) : Bool :=
  match test with
  | .ok answer => answer
  | .error _ => false

/-- Reads a decimal number between zero and an integer. -/
def decimalUpTo (most : Nat) : Reader Decimal := fun payload =>
  (decimal payload).andThen fun x =>
    (orFault (passes (x.le? (.ofInt most))) (.atMost most) x).andThen fun x =>
      orFault (passes (Decimal.zero.le? x)) (.atLeast 0) x

end Schema
end Appraisal
