import Appraisal.Moment.Basic
import Mathlib.Data.Nat.Basic

/-!
# Dates of the calendar

A day that is counted from 1970 has a date of the calendar, as long as its year lies between 1 and 9999.
The year of a day within a cycle is found without counting the leap days; it is the year whose first and
last day enclose the day.  The month and the day of the month follow from a table of one year.
-/

namespace Appraisal

namespace Date

/-- The date is one of the years 1 to 9999. -/
structure Valid (date : Date) : Prop where
  year_pos : 1 ≤ date.year
  year_le : date.year ≤ 9999
  month_pos : 1 ≤ date.month
  month_le : date.month ≤ 12
  day_pos : 1 ≤ date.day
  day_le : date.day ≤ daysInMonth date.year date.month

/-! ## Years of a cycle -/

/-- The days of a cycle before a year of it. -/
def daysBefore (year : Nat) : Nat :=
  365 * year + year / 4 - year / 100 + year / 400

/-- A day in which the leap days are not counted. -/
def withoutLeapDays (day : Nat) : Nat :=
  day - day / 1460 + day / 36524 - day / 146096

/-- Days counted without the leap days do not run backwards. -/
theorem withoutLeapDays_le {first second : Nat} (h : first ≤ second) :
    withoutLeapDays first ≤ withoutLeapDays second := by
  induction h with
  | refl => exact Nat.le_refl _
  | @step second _ ih =>
      -- One day later no quotient has grown by more than one, and the last only with the one before it.
      have hstep : withoutLeapDays second ≤ withoutLeapDays (second + 1) := by
        have hcycles (day : Nat) : day / 146096 = day / 36524 / 4 := by
          rw [Nat.div_div_eq_div_mul]
        have hcenturies : (second + 1) / 36524 = second / 36524 ∨
            (second + 1) / 36524 = second / 36524 + 1 := by omega
        have hfours : (second + 1) / 1460 ≤ second / 1460 + 1 := by omega
        unfold withoutLeapDays
        rw [hcycles, hcycles]
        rcases hcenturies with hcenturies | hcenturies
        · rw [hcenturies]
          omega
        · rw [hcenturies]
          omega
      exact Nat.le_trans ih hstep

/-- Every day before a year lies in one of the years that precede it. -/
theorem exists_year {count day : Nat} (h : day < daysBefore count) :
    ∃ year, year < count ∧ daysBefore year ≤ day ∧ day < daysBefore (year + 1) := by
  -- The last year whose beginning is not past the day.
  induction count with
  | zero => cases h
  | succ count ih =>
      by_cases hlast : daysBefore count ≤ day
      · exact ⟨count, by omega, hlast, h⟩
      · obtain ⟨year, hyear, hbounds⟩ := ih (by omega)
        exact ⟨year, by omega, hbounds⟩

theorem withoutLeapDays_year {year : Nat} (h : year < 400) :
    365 * year ≤ withoutLeapDays (daysBefore year) ∧
      withoutLeapDays (daysBefore (year + 1) - 1) < 365 * (year + 1) := by
  have hall : ∀ year : Fin 400, 365 * year.val ≤ withoutLeapDays (daysBefore year) ∧
      withoutLeapDays (daysBefore (year + 1) - 1) < 365 * (year + 1) := by
    decide +kernel
  exact hall ⟨year, h⟩

/-- A year that starts in March has a leap day at its end when the next one has a leap day. -/
theorem daysBefore_succ {year : Nat} (h : year < 400) :
    daysBefore year = 365 * year + year / 4 - year / 100 ∧
      daysBefore (year + 1) = daysBefore year + if isLeapYear (year + 1) then 366 else 365 := by
  have hall : ∀ year : Fin 400, daysBefore year = 365 * year.val + year.val / 4 - year.val / 100 ∧
      daysBefore (year + 1) = daysBefore year + if isLeapYear (year + 1) then 366 else 365 := by
    decide +kernel
  exact hall ⟨year, h⟩

/-- The year of a day is the one whose first and last day enclose it. -/
theorem yearOfCycle_bounds {day : Nat} (h : day < 146097) :
    yearOfCycle day < 400 ∧ daysBefore (yearOfCycle day) ≤ day ∧
      day < daysBefore (yearOfCycle day + 1) := by
  have hcycle : day < daysBefore 400 := h
  obtain ⟨year, hyear, hfirst, hlast⟩ := exists_year hcycle
  obtain ⟨hleast, hmost⟩ := withoutLeapDays_year hyear
  have hfrom := Nat.le_trans hleast (withoutLeapDays_le hfirst)
  have hto := Nat.lt_of_le_of_lt (withoutLeapDays_le (Nat.le_sub_one_of_lt hlast)) hmost
  have heq : yearOfCycle day = year := by
    show withoutLeapDays day / 365 = year
    omega
  rw [heq]
  exact ⟨hyear, hfirst, hlast⟩

/-! ## Days of a year -/

/-- The day of its year, which starts in March, for a day of a cycle. -/
def dayOfYear (day : Nat) : Nat :=
  day - (365 * yearOfCycle day + yearOfCycle day / 4 - yearOfCycle day / 100)

theorem dayOfYear_bounds {day : Nat} (h : day < 146097) :
    dayOfYear day ≤ 365 ∧
      (dayOfYear day = 365 → isLeapYear (yearOfCycle day + 1) = true) := by
  obtain ⟨hyear, hfirst, hlast⟩ := yearOfCycle_bounds h
  obtain ⟨hbefore, hnext⟩ := daysBefore_succ hyear
  unfold dayOfYear
  rw [← hbefore]
  rw [hnext] at hlast
  split at hlast
  · next hleap => exact ⟨by omega, fun _ => hleap⟩
  · exact ⟨by omega, fun _ => by omega⟩

/-- The last year of the last cycle ends with December, as no year follows the year 9999. -/
theorem dayOfYear_last {day : Nat} (h : day ≤ 146036) (hyear : yearOfCycle day = 399) :
    dayOfYear day ≤ 305 := by
  unfold dayOfYear
  rw [hyear]
  omega

/-- The month of a day of a year, counted from March. -/
def monthFromMarch (dayOfYear : Nat) : Nat :=
  (5 * dayOfYear + 2) / 153

/-- The day of its month for a day of a year. -/
def dayOfMonth (dayOfYear : Nat) : Nat :=
  dayOfYear - (153 * monthFromMarch dayOfYear + 2) / 5 + 1

/-- The months from March on are those of the year itself; the last two belong to the next one. -/
def monthOfYear (month : Nat) : Nat :=
  if month < 10 then month + 3 else month - 9

/-- The year that starts in March is left before its last day, unless that one is a leap day. -/
theorem dayOfMonth_le {dayOfYear year : Nat} (h : dayOfYear ≤ 365)
    (hleap : dayOfYear = 365 → isLeapYear year = true) :
    dayOfMonth dayOfYear ≤ daysInMonth year (monthOfYear (monthFromMarch dayOfYear)) := by
  have hall : ∀ leap : Bool, ∀ dayOfYear : Fin 366, (dayOfYear.val = 365 → leap = true) →
      dayOfMonth dayOfYear ≤
        let month := monthOfYear (monthFromMarch dayOfYear)
        if month = 0 ∨ 12 < month then 0
        else if month = 2 then if leap then 29 else 28
        else if month ∈ [4, 6, 9, 11] then 30
        else 31 := by
    decide +kernel
  exact hall (isLeapYear year) ⟨dayOfYear, by omega⟩ hleap

theorem monthFromMarch_le {dayOfYear : Nat} (h : dayOfYear ≤ 365) :
    monthFromMarch dayOfYear ≤ 11 ∧ (dayOfYear ≤ 305 → monthFromMarch dayOfYear ≤ 9) := by
  unfold monthFromMarch
  omega

/-! ## The date of a day -/

/-- The date of a day of a cycle. -/
def ofCycle (cycle : Int) (day : Nat) : Date :=
  let month := monthOfYear (monthFromMarch (dayOfYear day))
  { year := (cycle * 400 + yearOfCycle day + if month ≤ 2 then 1 else 0).toNat
    month
    day := dayOfMonth (dayOfYear day) }

theorem ofDay_eq_ofCycle (day : Int) :
    ofDay day = ofCycle ((day + daysBeforeEpoch) / daysPerCycle)
      ((day + daysBeforeEpoch) % daysPerCycle).toNat := by
  rfl

theorem isLeapYear_add_cycles (cycle year : Nat) :
    isLeapYear (cycle * 400 + year) = isLeapYear year := by
  have hfour : (cycle * 400 + year) % 4 = year % 4 := by omega
  have hhundred : (cycle * 400 + year) % 100 = year % 100 := by omega
  have hcycle : (cycle * 400 + year) % 400 = year % 400 := by omega
  rw [isLeapYear, hfour, hhundred, hcycle, isLeapYear]

/-- A day of one of the cycles up to the year 9999 is a valid date, unless it lies in the year zero. -/
theorem valid_ofCycle {cycle day : Nat} (hday : day < 146097) (hcycle : cycle ≤ 24)
    (hend : cycle = 24 → day ≤ 146036) (hnonzero : (ofCycle cycle day).year ≠ 0) :
    (ofCycle cycle day).Valid := by
  obtain ⟨hyear, -, -⟩ := yearOfCycle_bounds hday
  obtain ⟨hdays, hleap⟩ := dayOfYear_bounds hday
  obtain ⟨hmonth, hautumn⟩ := monthFromMarch_le hdays
  have hfinal (h : cycle = 24) := dayOfYear_last (hend h)
  have hmonths : 1 ≤ (ofCycle cycle day).month ∧ (ofCycle cycle day).month ≤ 12 ∧
      ((ofCycle cycle day).month ≤ 2 → 10 ≤ monthFromMarch (dayOfYear day)) := by
    show 1 ≤ monthOfYear _ ∧ monthOfYear _ ≤ 12 ∧ (monthOfYear _ ≤ 2 → _)
    unfold monthOfYear
    split <;> omega
  have hnext : (ofCycle cycle day).year =
      cycle * 400 + yearOfCycle day + if (ofCycle cycle day).month ≤ 2 then 1 else 0 := by
    show Int.toNat _ = _ + if monthOfYear _ ≤ 2 then 1 else 0
    split <;> omega
  have hshort : (ofCycle cycle day).day ≤
      daysInMonth (ofCycle cycle day).year (ofCycle cycle day).month := by
    refine dayOfMonth_le hdays fun hlast => ?_
    -- The last day lies in the last month, so the leap year is the one in which it lies.
    have hfebruary : (ofCycle cycle day).month ≤ 2 := by
      show monthOfYear (monthFromMarch (dayOfYear day)) ≤ 2
      rw [hlast]
      decide
    rw [hnext, if_pos hfebruary, Nat.add_assoc, isLeapYear_add_cycles]
    exact hleap hlast
  exact
    { year_pos := by omega
      year_le := by
        rw [hnext]
        split <;> omega
      month_pos := hmonths.1
      month_le := hmonths.2.1
      day_pos := Nat.le_add_left 1 _
      day_le := hshort }

/-- A day between the first and the last of the proleptic calendar is a valid date, unless it lies in the year
zero. -/
theorem valid_ofDay {day : Int} (hleast : -719528 ≤ day) (hmost : day ≤ 2932896)
    (hnonzero : (ofDay day).year ≠ 0) : (ofDay day).Valid := by
  have hnonneg := Int.emod_nonneg (day + daysBeforeEpoch) (show daysPerCycle ≠ 0 by decide)
  have hlt := Int.emod_lt_of_pos (day + daysBeforeEpoch) (show (0 : Int) < daysPerCycle by decide)
  have hparts := Int.emod_add_mul_ediv (day + daysBeforeEpoch) daysPerCycle
  rw [ofDay_eq_ofCycle] at hnonzero ⊢
  generalize (day + daysBeforeEpoch) % daysPerCycle = dayOfCycle at *
  generalize (day + daysBeforeEpoch) / daysPerCycle = cycle at *
  unfold daysPerCycle daysBeforeEpoch at *
  have hday : dayOfCycle.toNat < 146097 := by omega
  -- A year counts from March, so the first cycle already holds the end of the year zero.
  rcases cycle with cycle | cycle
  · rw [Int.ofNat_eq_natCast] at hparts hnonzero ⊢
    exact valid_ofCycle hday (by omega) (by omega) hnonzero
  · -- The days before the first cycle belong to the year zero.
    have hyear := (yearOfCycle_bounds hday).1
    have hzero : (ofCycle (Int.negSucc cycle) dayOfCycle.toNat).year = 0 := by
      unfold ofCycle
      dsimp only
      split <;> omega
    exact absurd hzero hnonzero

end Date
end Appraisal
