import Appraisal.Binary64.Text
import Appraisal.Failure.Issue
import Appraisal.Moment.Basic
import Appraisal.Payload.Basic

/-!
# Reading moments

A moment is given as a text or as a number.  A text is a date and a time, a date alone, or a numeral; a
number counts seconds from the start of 1970, or milliseconds when it is larger than twenty thousand
million.  Numbers reach from the start of the year zero to the end of the year 9999, and no moment lies
within the year zero itself.

When a text is neither a date with a time nor a numeral within that range, it is judged as a date.
-/

namespace Appraisal
namespace Moment

open Text (readDigits readSign)

/-! ## Numbers -/

/-- The first second of the year zero. -/
def firstSecond : Int := -62167219200

/-- The last second of the year 9999. -/
def lastSecond : Int := 253402300799

/-- The largest number that counts seconds. -/
def secondsLimit : Int := 20000000000

/-- What is said of a number before the year zero. -/
def tooSmall : String := "dates before 0000 are not supported as unix timestamps"

/-- What is said of a number after the year 9999. -/
def tooLarge : String := "dates after 9999 are not supported as unix timestamps"

/-- The moment of a second and a microsecond of it. -/
def ofSecond (second : Int) (microsecond : Nat) : Except String Moment :=
  if second < firstSecond then .error tooSmall
  else if lastSecond < second then .error tooLarge
  else
    let rest := (second % 86400).toNat
    .ok
      { date := .ofDay (second / 86400)
        time :=
          { hour := rest / 3600, minute := rest / 60 % 60, second := rest % 60, microsecond }
        offset := some 0 }

/-- The moment of a second and of microseconds beside it, which may make up further seconds. -/
def ofParts (second : Int) (microseconds : Nat) : Except String Moment :=
  ofSecond (second + (microseconds / 1000000 : Nat)) (microseconds % 1000000)

/-- The moment of a whole number of seconds or milliseconds. -/
def ofStamp (stamp : Int) : Except String Moment :=
  if stamp.natAbs ≤ secondsLimit then ofParts stamp 0
  else ofParts (stamp / 1000) ((stamp % 1000).toNat * 1000)

/-- The moment of a number of seconds or milliseconds, of which the part after the point is rounded to
microseconds. -/
def ofFloat : Binary64 → Except String Moment
  | .finite negative significand scale =>
      let units := Binary64.units negative significand scale
      let whole := units / Binary64.unitsPerOne
      let fraction := Binary64.ofUnits false (units % Binary64.unitsPerOne).toNat 1
      if units.natAbs ≤ secondsLimit * Binary64.unitsPerOne then
        ofParts whole (fraction.mulCount 1000000).nearestNat
      else
        ofParts (whole / 1000)
          ((whole % 1000).toNat * 1000 + (fraction.mulCount 1000).nearestNat)
  | .infinite negative => .error (if negative then tooSmall else tooLarge)
  | .nan => .error "NaN values not permitted"

/-! ## Numerals -/

/-- The bound that the integers of numerals stay below; its negative is the least of them. -/
def numeralBound : Nat := twoTo 63

/-- Whether the integer with a sign and a magnitude is within the range of numerals. -/
def inNumeralRange (negative : Bool) (magnitude : Nat) : Bool :=
  decide (magnitude < numeralBound) || (negative && decide (magnitude = numeralBound))

/-- The integer that plain digits with a sign denote, unless it is out of range. -/
def wholeNumeral? (cs : List Char) : Option Int :=
  let (negative, digits) := readSign cs
  if digits ≠ [] ∧ digits.all Char.isDigit ∧ inNumeralRange negative (readDigits digits) then
    some (if negative then -(readDigits digits : Int) else readDigits digits)
  else none

/-- The number that a numeral with a point denotes; an exponent may follow the digits. -/
def pointNumeral? (cs : List Char) : Option Binary64 :=
  let (negative, rest) := readSign cs
  let whole := rest.takeWhile Char.isDigit
  match rest.dropWhile Char.isDigit with
  | '.' :: _ =>
      if inNumeralRange negative (readDigits whole) then
        (Text.readScientific? rest).map fun number => .ofScientific negative number.1 number.2
      else none
  | _ => none

/-- The moment of a numeral, if the text is one. -/
def ofNumeral? (cs : List Char) : Option (Except String Moment) :=
  match wholeNumeral? cs with
  | some stamp => some (ofStamp stamp)
  | none => (pointNumeral? cs).map ofFloat

/-! ## Dates and times -/

/-- The number that some plain digits at the front of a text denote, and what follows them. -/
def digits? (count : Nat) (cs : List Char) : Option (Nat × List Char) :=
  let digits := cs.take count
  if digits.length = count ∧ digits.all Char.isDigit then
    some (readDigits digits, cs.drop count)
  else none

/-- Some plain digits at the front of a text, or what is said when they are not there. -/
def digitsOr (reason : String) (count : Nat) (cs : List Char) :
    Except String (Nat × List Char) :=
  match digits? count cs with
  | some answer => .ok answer
  | none => .error reason

/-- What follows a hyphen. -/
def afterHyphen : List Char → Except String (List Char)
  | '-' :: rest => .ok rest
  | _ => .error "invalid date separator, expected `-`"

/-- The date at the front of a text, and what follows it. -/
def readDate (cs : List Char) : Except String (Date × List Char) := do
  if (String.ofList cs).utf8ByteSize < 10 then
    throw "input is too short"
  let (year, rest) ← digitsOr "invalid character in year" 4 cs
  let rest ← afterHyphen rest
  let (month, rest) ← digitsOr "invalid character in month" 2 rest
  let rest ← afterHyphen rest
  let (day, rest) ← digitsOr "invalid character in day" 2 rest
  if month = 0 ∨ 12 < month then
    throw "month value is outside expected range of 1-12"
  if day = 0 ∨ Date.daysInMonth year month < day then
    throw "day value is outside expected range"
  return ({ year, month, day }, rest)

/-- The microseconds of a fraction of a second; digits beyond the sixth are dropped. -/
def microseconds (digits : List Char) : Nat :=
  readDigits (digits.take 6) * tenTo (6 - digits.length)

/-- The fraction of a second at the front of a text in microseconds, and what follows it. -/
def fraction? : List Char → Option (Nat × List Char)
  | [] => some (0, [])
  | c :: rest =>
      if c = '.' ∨ c = ',' then
        match rest.takeWhile Char.isDigit with
        | [] => none
        | digits => some (microseconds digits, rest.dropWhile Char.isDigit)
      else some (0, c :: rest)

/-- The seconds at the front of a text with their fraction, and what follows them; there may be none. -/
def seconds? : List Char → Option ((Nat × Nat) × List Char)
  | ':' :: rest => do
      let (second, rest) ← digits? 2 rest
      let (microsecond, rest) ← fraction? rest
      if second ≤ 59 then some ((second, microsecond), rest) else none
  | rest => some ((0, 0), rest)

/-- The time of day at the front of a text, and what follows it. -/
def readTime? (cs : List Char) : Option (TimeOfDay × List Char) := do
  let (hour, rest) ← digits? 2 cs
  let rest ← match rest with
    | ':' :: rest => some rest
    | _ => none
  let (minute, rest) ← digits? 2 rest
  let ((second, microsecond), rest) ← seconds? rest
  if hour ≤ 23 ∧ minute ≤ 59 then some ({ hour, minute, second, microsecond }, rest) else none

/-- An offset of hours and minutes; the colon between them may be left out. -/
def offsetMinutes? (cs : List Char) : Option Nat := do
  let (hours, rest) ← digits? 2 cs
  let rest := match rest with
    | ':' :: rest => rest
    | _ => rest
  let (minutes, rest) ← digits? 2 rest
  if rest = [] ∧ hours ≤ 23 ∧ minutes ≤ 59 then some (60 * hours + minutes) else none

/-- The offset that ends a text; there may be none. -/
def readOffset? : List Char → Option (Option Int)
  | [] => some none
  | c :: rest =>
      if c = 'Z' ∨ c = 'z' then
        if rest = [] then some (some 0) else none
      else if c = '+' then
        (offsetMinutes? rest).map fun minutes => some minutes
      else if c = '-' ∨ c = '\u2212' then
        (offsetMinutes? rest).map fun minutes => some (-minutes)
      else none

/-- Whether a character may stand between a date and a time. -/
def isSeparator (c : Char) : Bool :=
  c == 'T' || c == 't' || c == ' ' || c == '_'

/-- The moment that a date with a time denotes. -/
def ofDateTime? (cs : List Char) : Option Moment := do
  let (date, rest) ← (readDate cs).toOption
  match rest with
  | [] => none
  | c :: rest =>
      if isSeparator c then do
        let (time, rest) ← readTime? rest
        let offset ← readOffset? rest
        return { date, time, offset }
      else none

/-- The moment at which a date starts. -/
def ofDateAlone (cs : List Char) : Except String Moment := do
  match wholeNumeral? cs, readDate cs with
  | none, .ok (date, []) => return { date, time := .midnight, offset := none }
  | none, .ok (_, _ :: _) => throw "unexpected extra characters at the end of the input"
  | none, .error reason => throw reason
  | some stamp, _ => ofStamp stamp

/-- The moment that a text denotes. -/
def ofChars (cs : List Char) : Except String Moment :=
  match ofDateTime? cs with
  | some moment => .ok moment
  | none =>
      match ofNumeral? cs with
      | some (.ok moment) => .ok moment
      | _ => ofDateAlone cs

/-! ## Payloads -/

/-- A moment as the answer, unless its year is zero, or what is said of the payload instead. -/
def checked (fault : String → Fault) : Except String Moment → Except Fault Moment
  | .ok moment =>
      if moment.date.year = 0 then .error (.momentNumber "year 0 is out of range") else .ok moment
  | .error reason => .error (fault reason)

/-- The moment that a payload denotes. -/
def ofPayload : Payload → Except Fault Moment
  | .text text => checked .momentText (ofChars text.toList)
  | .bool _ => .error .momentType
  | payload =>
      match payload.real? with
      | some x => checked .momentNumber (ofFloat x)
      | none => .error .momentType

end Moment
end Appraisal
