import Appraisal.Text.Numeral

/-!
# Moments

Dates, times of day and the moments made of them.
-/

namespace Appraisal

/-!
## The calendar

Dates of the calendar with leap years, and the date of a day that is counted from the first of January
1970.  Days are counted in cycles of four hundred years, which all have the same length, and within a
cycle in years that start in March, so that the leap day is the last day of its year.
-/

/-- A date. -/
structure Date where
  year : Nat
  month : Nat
  day : Nat
  deriving DecidableEq, Repr

namespace Date

/-- Whether a year has a leap day. -/
def isLeapYear (year : Nat) : Bool :=
  year % 4 == 0 && (year % 100 != 0 || year % 400 == 0)

/-- The number of days of a month; none when there is no such month. -/
def daysInMonth (year month : Nat) : Nat :=
  if month = 0 ∨ 12 < month then 0
  else if month = 2 then if isLeapYear year then 29 else 28
  else if month ∈ [4, 6, 9, 11] then 30
  else 31

/-- The number of days of a cycle of four hundred years. -/
def daysPerCycle : Int := 146097

/-- The number of days from the first of March of the year zero to the first of January 1970. -/
def daysBeforeEpoch : Int := 719468

/-- The year of a cycle, counted from March, to which a day of the cycle belongs. -/
def yearOfCycle (day : Nat) : Nat :=
  (day - day / 1460 + day / 36524 - day / 146096) / 365

/-- The date of a day that is counted from the first of January 1970, for years that are not negative.

The first two months of a year belong to the year before it when years start in March. -/
def ofDay (day : Int) : Date :=
  let shifted := day + daysBeforeEpoch
  let dayOfCycle := (shifted % daysPerCycle).toNat
  let year := yearOfCycle dayOfCycle
  let dayOfYear := dayOfCycle - (365 * year + year / 4 - year / 100)
  let monthFromMarch := (5 * dayOfYear + 2) / 153
  let month := if monthFromMarch < 10 then monthFromMarch + 3 else monthFromMarch - 9
  { year := (shifted / daysPerCycle * 400 + year + if month ≤ 2 then 1 else 0).toNat
    month
    day := dayOfYear - (153 * monthFromMarch + 2) / 5 + 1 }

end Date

/-!
## Times and moments

A moment is a date with a time of day, up to microseconds, and possibly the offset of its time zone.  Its
text has the date and the time with a `T` between them; the microseconds are written only when there are
any.  An offset of zero is written as `+00:00` in `isoText` and as `Z` in `zuluText`.
-/

/-- A time of day. -/
structure TimeOfDay where
  hour : Nat
  minute : Nat
  second : Nat
  microsecond : Nat
  deriving DecidableEq, Repr

/-- A date with a time of day. -/
structure Moment where
  date : Date
  time : TimeOfDay
  /-- The minutes by which the time zone is ahead, if it is known. -/
  offset : Option Int
  deriving DecidableEq, Repr

namespace TimeOfDay

/-- The start of a day. -/
def midnight : TimeOfDay :=
  { hour := 0, minute := 0, second := 0, microsecond := 0 }

end TimeOfDay

namespace Moment

/-- A numeral with zeros in front up to a width. -/
def padded (width n : Nat) : List Char :=
  let digits := Text.numeral n
  List.replicate (width - digits.length) '0' ++ digits

/-- The text of a date. -/
def dateText (date : Date) : List Char :=
  padded 4 date.year ++ '-' :: padded 2 date.month ++ '-' :: padded 2 date.day

/-- The text of a time of day. -/
def timeText (time : TimeOfDay) : List Char :=
  padded 2 time.hour ++ ':' :: padded 2 time.minute ++ ':' :: padded 2 time.second ++
    if time.microsecond = 0 then [] else '.' :: padded 6 time.microsecond

/-- The text of an offset in minutes. -/
def offsetText (minutes : Int) : List Char :=
  (if minutes < 0 then '-' else '+') :: padded 2 (minutes.natAbs / 60) ++
    ':' :: padded 2 (minutes.natAbs % 60)

/-- The text of a moment without its offset. -/
def localText (moment : Moment) : List Char :=
  dateText moment.date ++ 'T' :: timeText moment.time

/-- The text of a moment, with a numeric offset. -/
def isoText (moment : Moment) : String :=
  String.ofList <| moment.localText ++
    match moment.offset with
    | some minutes => offsetText minutes
    | none => []

/-- The text of a moment, with `Z` for the offset zero. -/
def zuluText (moment : Moment) : String :=
  String.ofList <| moment.localText ++
    match moment.offset with
    | some minutes => if minutes = 0 then ['Z'] else offsetText minutes
    | none => []

end Moment

end Appraisal
