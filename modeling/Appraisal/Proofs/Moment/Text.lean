import Appraisal.Moment.Reading
import Appraisal.Proofs.Fallible
import Appraisal.Proofs.Moment.Calendar
import Appraisal.Proofs.Text.Digits
import Mathlib.Data.List.TakeWhile

/-!
# The text of a moment can be read back

Whatever a payload is read as, its date is a date of the years 1 to 9999, its time is a time of day and its
offset is shorter than a day.  For a date that is written out the reader checks it; for a number of seconds
it follows from the calendar.  Such a moment is what its text denotes, in either spelling of the offset.
-/

namespace Appraisal

open Text

namespace TimeOfDay

/-- The time lies within a day. -/
structure Valid (time : TimeOfDay) : Prop where
  hour_le : time.hour ≤ 23
  minute_le : time.minute ≤ 59
  second_le : time.second ≤ 59
  microsecond_lt : time.microsecond < 1000000

theorem valid_midnight : midnight.Valid := by
  constructor <;> decide

end TimeOfDay

namespace Moment

/-- The moment has a date of the years 1 to 9999, a time of day and an offset of less than a day. -/
structure Valid (moment : Moment) : Prop where
  date : moment.date.Valid
  time : moment.time.Valid
  offset : ∀ minutes, moment.offset = some minutes → minutes.natAbs ≤ 1439

/-! ## Moments of numbers -/

/-- A second within the limits of the calendar names a valid moment, outside the year zero. -/
theorem valid_ofSecond {second : Int} {microsecond : Nat} {moment : Moment}
    (hmicrosecond : microsecond < 1000000) (h : ofSecond second microsecond = .ok moment)
    (hyear : moment.date.year ≠ 0) : moment.Valid := by
  unfold ofSecond firstSecond lastSecond at h
  split at h
  · cases h
  · split at h
    · cases h
    · obtain rfl := Except.ok.inj h
      exact
        { date := Date.valid_ofDay (by omega) (by omega) hyear
          time :=
            { hour_le := by
                show (second % 86400).toNat / 3600 ≤ 23
                omega
              minute_le := by
                show (second % 86400).toNat / 60 % 60 ≤ 59
                omega
              second_le := by
                show (second % 86400).toNat % 60 ≤ 59
                omega
              microsecond_lt := hmicrosecond }
          offset := fun minutes hminutes => by
            obtain rfl := Option.some.inj hminutes
            decide }

theorem valid_ofParts {second : Int} {microseconds : Nat} {moment : Moment}
    (h : ofParts second microseconds = .ok moment) (hyear : moment.date.year ≠ 0) :
    moment.Valid :=
  valid_ofSecond (Nat.mod_lt _ (by decide)) h hyear

theorem valid_ofStamp {stamp : Int} {moment : Moment} (h : ofStamp stamp = .ok moment)
    (hyear : moment.date.year ≠ 0) : moment.Valid := by
  unfold ofStamp at h
  split at h
  · exact valid_ofParts h hyear
  · exact valid_ofParts h hyear

theorem valid_ofFloat {x : Binary64} {moment : Moment} (h : ofFloat x = .ok moment)
    (hyear : moment.date.year ≠ 0) : moment.Valid := by
  unfold ofFloat at h
  split at h
  · dsimp only at h
    split at h
    · exact valid_ofParts h hyear
    · exact valid_ofParts h hyear
  · cases h
  · cases h

/-! ## Moments that are written out -/

theorem digits?_eq_some {count n : Nat} {cs rest : List Char} (h : digits? count cs = some (n, rest)) :
    n < 10 ^ count := by
  unfold digits? at h
  dsimp only at h
  obtain ⟨⟨hlength, hdigits⟩, hread⟩ := Option.ite_none_right_eq_some.1 h
  cases hread
  have hbound := readDigits_lt (List.all_eq_true.1 hdigits)
  rwa [hlength] at hbound

/-- A date is read only from digits that name a day of a month of a year. -/
theorem valid_readDate {cs rest : List Char} {date : Date} (h : readDate cs = .ok (date, rest))
    (hyear : date.year ≠ 0) : date.Valid := by
  unfold readDate at h
  split at h
  · cases h
  · simp only [bind_eq_ok, Prod.exists] at h
    obtain ⟨year, _, hread, _, -, month, _, -, _, -, day, _, -, h⟩ := h
    -- Month and day are checked; the year is bounded by its four digits.
    have hdigits : year < 10 ^ 4 := by
      unfold digitsOr at hread
      split at hread
      · next answer hanswer =>
          obtain rfl := Except.ok.inj hread
          exact digits?_eq_some hanswer
      · cases hread
    split at h
    · cases h
    · next hmonth =>
      split at h
      · cases h
      · next hday =>
        cases h
        exact
          { year_pos := Nat.pos_of_ne_zero hyear
            year_le := by
              show year ≤ 9999
              omega
            month_pos := by
              show 1 ≤ month
              omega
            month_le := by
              show month ≤ 12
              omega
            day_pos := by
              show 1 ≤ day
              omega
            day_le := by
              show day ≤ Date.daysInMonth year month
              omega }

theorem microseconds_lt {digits : List Char} (h : AllDigits digits) :
    microseconds digits < 1000000 := by
  have hread := readDigits_lt (h.take 6)
  rw [List.length_take] at hread
  have hscaled : readDigits (digits.take 6) * 10 ^ (6 - digits.length) <
      10 ^ min 6 digits.length * 10 ^ (6 - digits.length) :=
    Nat.mul_lt_mul_of_pos_right hread (Nat.pow_pos (by decide))
  rw [← pow_add, show min 6 digits.length + (6 - digits.length) = 6 by omega] at hscaled
  exact hscaled

theorem fraction?_lt {cs rest : List Char} {microsecond : Nat}
    (h : fraction? cs = some (microsecond, rest)) : microsecond < 1000000 := by
  unfold fraction? at h
  split at h
  · cases h
    decide
  · split at h
    · split at h
      · cases h
      · cases h
        refine microseconds_lt fun c hc => ?_
        exact List.mem_takeWhile_imp hc
    · cases h
      decide

theorem seconds?_le {cs rest : List Char} {second microsecond : Nat}
    (h : seconds? cs = some ((second, microsecond), rest)) :
    second ≤ 59 ∧ microsecond < 1000000 := by
  unfold seconds? at h
  split at h
  · simp only [Option.bind_eq_bind, Option.bind_eq_some_iff, Prod.exists,
      Option.ite_none_right_eq_some] at h
    obtain ⟨_, _, -, _, _, hfraction, hsecond, h⟩ := h
    cases h
    exact ⟨hsecond, fraction?_lt hfraction⟩
  · cases h
    decide

theorem valid_readTime? {cs rest : List Char} {time : TimeOfDay}
    (h : readTime? cs = some (time, rest)) : time.Valid := by
  unfold readTime? at h
  simp only [Option.bind_eq_bind, Option.bind_eq_some_iff, Prod.exists] at h
  obtain ⟨hour, _, -, h⟩ := h
  split at h
  · simp only [Option.bind_some, Option.bind_eq_some_iff, Prod.exists,
      Option.ite_none_right_eq_some] at h
    obtain ⟨minute, _, -, second, microsecond, _, hseconds, ⟨hhour, hminute⟩, h⟩ := h
    cases h
    obtain ⟨hsecond, hmicrosecond⟩ := seconds?_le hseconds
    exact ⟨hhour, hminute, hsecond, hmicrosecond⟩
  · cases h

theorem offsetMinutes?_le {cs : List Char} {minutes : Nat} (h : offsetMinutes? cs = some minutes) :
    minutes ≤ 1439 := by
  unfold offsetMinutes? at h
  simp only [Option.bind_eq_bind, Option.bind_eq_some_iff, Prod.exists] at h
  obtain ⟨hours, rest, -, minutes, rest, -, h⟩ := h
  obtain ⟨⟨-, hhours, hminutes⟩, heq⟩ := Option.ite_none_right_eq_some.1 h
  cases heq
  omega

theorem natAbs_offsetMinutes?_le {cs : List Char} {minutes : Int}
    (h : (offsetMinutes? cs >>= fun count => pure (count : Int)) = some minutes) :
    minutes.natAbs ≤ 1439 := by
  obtain ⟨count, hcount, heq⟩ := Option.bind_eq_some_iff.1 h
  cases heq
  exact offsetMinutes?_le hcount

/-- An offset that is read is less than a day, towards either side. -/
theorem readOffset?_le {cs : List Char} {offset : Option Int} (h : readOffset? cs = some offset)
    (minutes : Int) (hminutes : offset = some minutes) : minutes.natAbs ≤ 1439 := by
  subst hminutes
  unfold readOffset? at h
  -- No offset at all, the letter for an offset of zero, a plus, and a minus.
  split at h
  · cases h
  · split at h
    · obtain ⟨-, heq⟩ := Option.ite_none_right_eq_some.1 h
      cases heq
      decide
    · split at h
      · obtain ⟨count, hcount, heq⟩ := Option.map_eq_some_iff.1 h
        cases heq
        exact natAbs_offsetMinutes?_le hcount
      · split at h
        · obtain ⟨count, hcount, heq⟩ := Option.map_eq_some_iff.1 h
          cases heq
          rw [Int.natAbs_neg]
          exact natAbs_offsetMinutes?_le hcount
        · cases h

theorem valid_ofDateTime? {cs : List Char} {moment : Moment} (h : ofDateTime? cs = some moment)
    (hyear : moment.date.year ≠ 0) : moment.Valid := by
  unfold ofDateTime? at h
  simp only [Option.bind_eq_bind, Option.bind_eq_some_iff, Prod.exists] at h
  obtain ⟨date, rest, hdate, h⟩ := h
  split at h
  · cases h
  · obtain ⟨-, h⟩ := Option.ite_none_right_eq_some.1 h
    simp only [Option.bind_eq_some_iff, Prod.exists] at h
    obtain ⟨time, rest, htime, offset, hoffset, heq⟩ := h
    cases heq
    exact ⟨valid_readDate (toOption_eq_some.1 hdate) hyear, valid_readTime? htime,
      readOffset?_le hoffset⟩

theorem valid_ofDateAlone {cs : List Char} {moment : Moment} (h : ofDateAlone cs = .ok moment)
    (hyear : moment.date.year ≠ 0) : moment.Valid := by
  unfold ofDateAlone at h
  split at h
  · next hdate =>
      cases h
      exact ⟨valid_readDate hdate hyear, TimeOfDay.valid_midnight, fun _ h => by cases h⟩
  · cases h
  · cases h
  · exact valid_ofStamp h hyear

theorem valid_ofNumeral? {cs : List Char} {moment : Moment} (h : ofNumeral? cs = some (.ok moment))
    (hyear : moment.date.year ≠ 0) : moment.Valid := by
  unfold ofNumeral? at h
  split at h
  · exact valid_ofStamp (Option.some.inj h) hyear
  · obtain ⟨x, -, hx⟩ := Option.map_eq_some_iff.1 h
    exact valid_ofFloat hx hyear

/-- A moment read from a text is valid, outside the year zero, whichever of the forms the text has. -/
theorem valid_ofChars {cs : List Char} {moment : Moment} (h : ofChars cs = .ok moment)
    (hyear : moment.date.year ≠ 0) : moment.Valid := by
  unfold ofChars at h
  split at h
  · next hread =>
      cases h
      exact valid_ofDateTime? hread hyear
  · split at h
    · next hread =>
        cases h
        exact valid_ofNumeral? hread hyear
    · exact valid_ofDateAlone h hyear

theorem checked_eq_ok {fault : String → Fault} {answer : Except String Moment} {moment : Moment}
    (h : checked fault answer = .ok moment) : answer = .ok moment ∧ moment.date.year ≠ 0 := by
  unfold checked at h
  split at h
  · split at h
    · cases h
    · next hyear =>
        cases h
        exact ⟨rfl, hyear⟩
  · cases h

/-- Every payload that is read as a moment denotes one of the calendar. -/
theorem valid_ofPayload {payload : Payload} {moment : Moment} (h : ofPayload payload = .ok moment) :
    moment.Valid := by
  unfold ofPayload at h
  split at h
  · obtain ⟨hread, hyear⟩ := checked_eq_ok h
    exact valid_ofChars hread hyear
  · cases h
  · split at h
    · obtain ⟨hread, hyear⟩ := checked_eq_ok h
      exact valid_ofFloat hread hyear
    · cases h

/-! ## Writing and reading digits -/

theorem length_padded {width n : Nat} (hwidth : 0 < width) (h : n < 10 ^ width) :
    (padded width n).length = width := by
  have hlength := length_numeral_le hwidth h
  unfold padded
  rw [List.length_append, List.length_replicate]
  omega

theorem allDigits_padded (width n : Nat) : AllDigits (padded width n) :=
  allDigits_append.2 ⟨allDigits_replicate _, allDigits_numeral n⟩

theorem readDigits_padded (width n : Nat) : readDigits (padded width n) = n := by
  unfold padded
  rw [readDigits_zeros_append, readDigits_numeral]

theorem digits?_padded {width n : Nat} (hwidth : 0 < width) (h : n < 10 ^ width)
    (rest : List Char) : digits? width (padded width n ++ rest) = some (n, rest) := by
  have hlength := length_padded hwidth h
  have htake : (padded width n ++ rest).take width = padded width n := by
    rw [List.take_append_of_le_length (by omega), List.take_of_length_le (by omega)]
  have hdrop : (padded width n ++ rest).drop width = rest := by
    rw [List.drop_append_of_le_length (by omega), List.drop_eq_nil_of_le (by omega),
      List.nil_append]
  unfold digits?
  simp only [htake, hdrop, hlength, (allDigits_padded width n).all, and_self, if_true,
    readDigits_padded]

theorem digitsOr_padded {width n : Nat} (reason : String) (hwidth : 0 < width)
    (h : n < 10 ^ width) (rest : List Char) :
    digitsOr reason width (padded width n ++ rest) = .ok (n, rest) := by
  unfold digitsOr
  rw [digits?_padded hwidth h]

/-! ## Reading the text back -/

theorem length_le_utf8ByteSize (cs : List Char) : cs.length ≤ (String.ofList cs).utf8ByteSize := by
  induction cs with
  | nil => exact Nat.zero_le _
  | cons c cs ih =>
      have hpos := c.utf8Size_pos
      rw [String.ofList_cons, String.utf8ByteSize_append, String.utf8ByteSize_singleton,
        List.length_cons]
      omega

/-- The text of a valid date is read as that date, and what follows is left alone. -/
theorem readDate_dateText {date : Date} (h : date.Valid) (rest : List Char) :
    readDate (dateText date ++ rest) = .ok (date, rest) := by
  have hyear : date.year < 10 ^ 4 := Nat.lt_succ_of_le h.year_le
  have hmonth : date.month < 10 ^ 2 := Nat.lt_of_le_of_lt h.month_le (by decide)
  have hday : date.day < 10 ^ 2 := by
    have hmost : Date.daysInMonth date.year date.month ≤ 31 := by
      unfold Date.daysInMonth
      repeat' split
      all_goals decide
    exact Nat.lt_of_le_of_lt (Nat.le_trans h.day_le hmost) (by decide)
  have htext : dateText date ++ rest = padded 4 date.year ++
      ('-' :: (padded 2 date.month ++ ('-' :: (padded 2 date.day ++ rest)))) := by
    simp [dateText]
  -- Ten characters are at least ten bytes, so the text is long enough for a date.
  have hlong : ¬ (String.ofList (dateText date ++ rest)).utf8ByteSize < 10 := by
    have hlength := length_le_utf8ByteSize (dateText date ++ rest)
    rw [htext] at hlength ⊢
    simp only [List.length_append, List.length_cons, length_padded (by decide : 0 < 4) hyear,
      length_padded (by decide : 0 < 2) hmonth, length_padded (by decide : 0 < 2) hday] at hlength
    omega
  have hmonths : ¬ (date.month = 0 ∨ 12 < date.month) := by
    have := h.month_pos
    have := h.month_le
    omega
  have hdays : ¬ (date.day = 0 ∨ Date.daysInMonth date.year date.month < date.day) := by
    have := h.day_pos
    have := h.day_le
    omega
  unfold readDate
  rw [if_neg hlong, htext]
  simp only [digitsOr_padded _ (by decide : 0 < 4) hyear, digitsOr_padded _ (by decide : 0 < 2) hmonth,
    digitsOr_padded _ (by decide : 0 < 2) hday, afterHyphen, ok_bind, if_neg hmonths, if_neg hdays]
  rfl

/-- What may stand behind a time: nothing that would belong to its seconds. -/
def EndsTime (cs : List Char) : Prop :=
  ¬ StartsWithDigit cs ∧ ∀ c rest, cs = c :: rest → ¬ (c = '.' ∨ c = ',')

theorem fraction?_eq_zero {cs : List Char} (h : EndsTime cs) : fraction? cs = some (0, cs) := by
  cases cs with
  | nil => rfl
  | cons c rest =>
      rw [fraction?, if_neg (h.2 c rest rfl)]

/-- A fraction written with six digits is read in full. -/
theorem fraction?_padded {microsecond : Nat} (h : microsecond < 1000000) {rest : List Char}
    (hrest : EndsTime rest) :
    fraction? ('.' :: (padded 6 microsecond ++ rest)) = some (microsecond, rest) := by
  have hdigits := allDigits_padded 6 microsecond
  have hlength : (padded 6 microsecond).length = 6 := length_padded (by decide) h
  have htake : (padded 6 microsecond).take 6 = padded 6 microsecond :=
    List.take_of_length_le (by omega)
  rw [fraction?, if_pos (.inl rfl), takeWhile_isDigit hdigits hrest.1, dropWhile_isDigit hdigits hrest.1]
  -- Six digits are not none, so the case of a point without digits falls away.
  split
  · next hnone =>
      rw [hnone] at hlength
      cases hlength
  · unfold microseconds
    rw [htake, readDigits_padded, hlength]
    simp

theorem seconds?_padded {time : TimeOfDay} (h : time.Valid) {rest : List Char}
    (hrest : EndsTime rest) :
    seconds? (':' :: (padded 2 time.second ++
      ((if time.microsecond = 0 then [] else '.' :: padded 6 time.microsecond) ++ rest))) =
      some ((time.second, time.microsecond), rest) := by
  have hfraction : fraction? ((if time.microsecond = 0 then []
      else '.' :: padded 6 time.microsecond) ++ rest) = some (time.microsecond, rest) := by
    split
    · next hzero => rw [List.nil_append, hzero, fraction?_eq_zero hrest]
    · exact fraction?_padded h.microsecond_lt hrest
  have hsecond : time.second < 10 ^ 2 := Nat.lt_of_le_of_lt h.second_le (by decide)
  unfold seconds?
  simp [digits?_padded (by decide : 0 < 2) hsecond, hfraction, h.second_le]

/-- The text of a time is read as that time, when what follows does not go on with digits or a fraction. -/
theorem readTime?_timeText {time : TimeOfDay} (h : time.Valid) {rest : List Char}
    (hrest : EndsTime rest) : readTime? (timeText time ++ rest) = some (time, rest) := by
  have htext : timeText time ++ rest = padded 2 time.hour ++ (':' :: (padded 2 time.minute ++
      (':' :: (padded 2 time.second ++
        ((if time.microsecond = 0 then [] else '.' :: padded 6 time.microsecond) ++ rest))))) := by
    simp [timeText]
  have hhour : time.hour < 10 ^ 2 := Nat.lt_of_le_of_lt h.hour_le (by decide)
  have hminute : time.minute < 10 ^ 2 := Nat.lt_of_le_of_lt h.minute_le (by decide)
  rw [htext]
  unfold readTime?
  simp [digits?_padded (by decide : 0 < 2) hhour, digits?_padded (by decide : 0 < 2) hminute,
    seconds?_padded h hrest, h.hour_le, h.minute_le]

theorem offsetMinutes?_padded {minutes : Nat} (h : minutes ≤ 1439) :
    offsetMinutes? (padded 2 (minutes / 60) ++ (':' :: padded 2 (minutes % 60))) = some minutes := by
  have hhours : minutes / 60 < 10 ^ 2 := by omega
  have hrest : minutes % 60 < 10 ^ 2 := by omega
  have hread := digits?_padded (by decide : 0 < 2) hrest []
  rw [List.append_nil] at hread
  unfold offsetMinutes?
  simp only [digits?_padded (by decide : 0 < 2) hhours, hread, Option.bind_eq_bind, Option.bind_some]
  rw [if_pos ⟨trivial, by omega, by omega⟩, Nat.div_add_mod]

/-- The text of an offset is read as that offset. -/
theorem readOffset?_offsetText {minutes : Int} (h : minutes.natAbs ≤ 1439) :
    readOffset? (offsetText minutes) = some (some minutes) := by
  have hread := offsetMinutes?_padded h
  unfold offsetText
  by_cases hnegative : minutes < 0
  · have hvalue : -(minutes.natAbs : Int) = minutes := by omega
    rw [if_pos hnegative, List.cons_append, readOffset?, if_neg (by decide), if_neg (by decide),
      if_pos (.inl rfl), hread]
    exact congrArg (fun value => some (some value)) hvalue
  · have hvalue : (minutes.natAbs : Int) = minutes := by omega
    rw [if_neg hnegative, List.cons_append, readOffset?, if_neg (by decide), if_pos rfl, hread]
    exact congrArg (fun value => some (some value)) hvalue

theorem endsTime_offsetText (minutes : Int) : EndsTime (offsetText minutes) := by
  unfold offsetText
  split
  · exact ⟨not_startsWithDigit_cons (by decide) _, fun c rest h => by cases h; decide⟩
  · exact ⟨not_startsWithDigit_cons (by decide) _, fun c rest h => by cases h; decide⟩

/-- The date and the time are read back with whatever offset the rest of the text denotes. -/
theorem ofChars_localText {moment : Moment} (h : moment.Valid) {rest : List Char}
    (hrest : EndsTime rest) (hoffset : readOffset? rest = some moment.offset) :
    ofChars (localText moment ++ rest) = .ok moment := by
  have htext : localText moment ++ rest =
      dateText moment.date ++ ('T' :: (timeText moment.time ++ rest)) := by
    simp [localText]
  have hread : ofDateTime? (localText moment ++ rest) = some moment := by
    rw [htext]
    unfold ofDateTime?
    rw [readDate_dateText h.date]
    simp [Except.toOption, isSeparator, readTime?_timeText h.time hrest, hoffset]
  unfold ofChars
  rw [hread]

theorem endsTime_nil : EndsTime [] :=
  ⟨not_startsWithDigit_nil, fun _ _ h => by cases h⟩

theorem ofChars_isoText {moment : Moment} (h : moment.Valid) :
    ofChars moment.isoText.toList = .ok moment := by
  unfold isoText
  rw [String.toList_ofList]
  split
  · next minutes hminutes =>
      refine ofChars_localText h (endsTime_offsetText minutes) ?_
      rw [hminutes, readOffset?_offsetText (h.offset minutes hminutes)]
  · next hnone => exact ofChars_localText h endsTime_nil (by rw [hnone]; rfl)

/-- The text that writes an offset of zero as the letter for it is read as the same moment. -/
theorem ofChars_zuluText {moment : Moment} (h : moment.Valid) :
    ofChars moment.zuluText.toList = .ok moment := by
  unfold zuluText
  rw [String.toList_ofList]
  -- Without an offset, at an offset of zero, and at another one.
  split
  · next minutes hminutes =>
      split
      · next hzero =>
          refine ofChars_localText h ?_ ?_
          · exact ⟨not_startsWithDigit_cons (by decide) _, fun c rest h => by cases h; decide⟩
          · rw [hminutes, hzero]
            rfl
      · refine ofChars_localText h (endsTime_offsetText minutes) ?_
        rw [hminutes, readOffset?_offsetText (h.offset minutes hminutes)]
  · next hnone => exact ofChars_localText h endsTime_nil (by rw [hnone]; rfl)

theorem checked_ok {fault : String → Fault} {moment : Moment} (h : moment.Valid) :
    checked fault (.ok moment) = .ok moment := by
  have hyear : moment.date.year ≠ 0 := Nat.ne_of_gt h.date.year_pos
  rw [checked, if_neg hyear]

/-- A moment of the calendar is what its text denotes. -/
theorem ofPayload_isoText {moment : Moment} (h : moment.Valid) :
    ofPayload (.text moment.isoText) = .ok moment := by
  rw [ofPayload, ofChars_isoText h, checked_ok h]

theorem ofPayload_zuluText {moment : Moment} (h : moment.Valid) :
    ofPayload (.text moment.zuluText) = .ok moment := by
  rw [ofPayload, ofChars_zuluText h, checked_ok h]

end Moment
end Appraisal
