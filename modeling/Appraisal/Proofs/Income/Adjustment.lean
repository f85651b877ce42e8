import Appraisal.Income.Stream
import Appraisal.Proofs.Decimal.Value
import Appraisal.Proofs.Fallible
import Appraisal.Proofs.Payload.Amount

/-!
# What an adjustment for vacancy reads

An adjustment computes the share of income that is kept from the accepted rate, and everything else from that
share and the annual incomes of the rows.  It rewrites only what it does not read, so adjusting a stream again
is the same as adjusting it for the first time: the last rate counts, and vacancy is never taken off twice.
-/

namespace Appraisal
namespace Income

variable {stream adjusted : RevenueStream} {row occupied : RevenueRow} {percent share : Decimal}

/-- The share of income that is kept at a rate in percent. -/
def keptShare (percent : Decimal) : Except Decimal.Signal Decimal := do
  Decimal.one.sub (← percent.div hundred)

@[simp] theorem value_hundred : hundred.value = 100 := by
  simp [hundred]

@[simp] theorem value_one : Decimal.one.value = 1 :=
  (Decimal.value_ofInt 1).trans Int.cast_one

/-! ## Rates -/

/-- A finite rate can always be compared, and it passes if it lies between zero and a hundred. -/
theorem isPercentage_eq_ok (h : percent.isFinite = true) :
    isPercentage percent = .ok (decide (0 ≤ percent.value ∧ percent.value ≤ 100)) := by
  unfold isPercentage
  rw [Decimal.le?_eq_ok rfl h, Decimal.le?_eq_ok h rfl, Decimal.value_zero, value_hundred, ok_bind]
  by_cases hlow : 0 ≤ percent.value
  · rw [decide_eq_true hlow, if_pos rfl]
    simp [hlow]
  · rw [decide_eq_false hlow, if_neg Bool.false_ne_true]
    simp [hlow, pure, Except.pure]

/-- The rate that an adjustment takes, which lies between zero and a hundred percent. -/
structure Accepted (rate fallback : Payload) (percent : Decimal) : Prop where
  amount : rate.amount?.or fallback.amount? = some percent
  isPercentage : isPercentage percent = .ok true

theorem Accepted.isFinite {rate fallback : Payload} (h : Accepted rate fallback percent) :
    percent.isFinite = true := by
  rcases Option.or_eq_some_iff.1 h.amount with hrate | ⟨-, hfallback⟩
  · exact Payload.isFinite_of_amount? hrate
  · exact Payload.isFinite_of_amount? hfallback

theorem Accepted.value_mem {rate fallback : Payload} (h : Accepted rate fallback percent) :
    0 ≤ percent.value ∧ percent.value ≤ 100 := by
  have hpercentage := h.isPercentage
  rw [isPercentage_eq_ok h.isFinite] at hpercentage
  exact of_decide_eq_true (Except.ok.inj hpercentage)

/-- The adjustment succeeds with the first rate that is a number, if that is a percentage and the arithmetic
succeeds. -/
theorem withVacancy_eq_ok_iff {rate fallback : Payload} :
    stream.withVacancy rate fallback = .ok adjusted ↔
      ∃ percent, Accepted rate fallback percent ∧ stream.adjusted percent = .ok adjusted := by
  unfold RevenueStream.withVacancy
  -- Without a number in either place both sides are false.
  cases hamount : rate.amount?.or fallback.amount? with
  | none =>
      refine iff_of_false (by simp) ?_
      rintro ⟨percent, haccepted, -⟩
      cases hamount.symm.trans haccepted.amount
  | some percent =>
      simp only [bind_eq_ok, ofDecimal_eq_ok]
      constructor
      · rintro ⟨accepts, haccepts, h⟩
        cases accepts with
        | false => cases h
        | true => exact ⟨percent, ⟨hamount, haccepts⟩, ofDecimal_eq_ok.1 h⟩
      · rintro ⟨other, haccepted, h⟩
        obtain rfl := Option.some.inj (hamount.symm.trans haccepted.amount)
        exact ⟨true, haccepted.isPercentage, ofDecimal_eq_ok.2 h⟩

/-! ## Rows and streams -/

/-- Two operations on the full income make both rewritten fields. -/
theorem occupied_eq_ok_iff :
    row.occupied share = .ok occupied ↔ ∃ effective loss, row.annualIncome.mul share = .ok effective ∧
      row.annualIncome.sub effective = .ok loss ∧
      { row with effectiveAnnualIncome := effective, vacancyLoss := loss } = occupied := by
  unfold RevenueRow.occupied
  simp only [bind_eq_ok, pure_eq_ok, exists_and_left]

theorem annualIncome_of_occupied (h : row.occupied share = .ok occupied) :
    occupied.annualIncome = row.annualIncome := by
  obtain ⟨effective, loss, -, -, rfl⟩ := occupied_eq_ok_iff.1 h
  rfl

/-- The adjusted rows have the incomes of the rows, so it does not matter which of them are added. -/
theorem gross_of_occupied {rows results : List RevenueRow}
    (h : rows.mapM (fun row => row.occupied share) = .ok results) : gross results = gross rows := by
  unfold gross
  rw [map_eq_of_mapM (fun _ _ h => annualIncome_of_occupied h) h]

/-- An adjustment in terms of the share that is kept and of the rows before it. -/
theorem adjusted_eq_ok_iff :
    stream.adjusted percent = .ok adjusted ↔ ∃ share rows total effective,
      keptShare percent = .ok share ∧
      stream.rows.mapM (fun row => row.occupied share) = .ok rows ∧ gross stream.rows = .ok total ∧
      total.mul share = .ok effective ∧
      { stream with
        rows, vacancyRate := some percent
        totals := { stream.totals with grossRevenue := total, effectiveRevenue := effective } } =
          adjusted := by
  unfold RevenueStream.adjusted keptShare
  constructor
  · intro h
    obtain ⟨rate, hrate, h⟩ := bind_eq_ok.1 h
    obtain ⟨share, hshare, h⟩ := bind_eq_ok.1 h
    obtain ⟨rows, hrows, h⟩ := bind_eq_ok.1 h
    obtain ⟨total, htotal, h⟩ := bind_eq_ok.1 h
    obtain ⟨effective, heffective, h⟩ := bind_eq_ok.1 h
    -- The sum is taken over the new rows, whose incomes are those of the old ones.
    rw [gross_of_occupied hrows] at htotal
    exact ⟨share, rows, total, effective, bind_eq_ok.2 ⟨rate, hrate, hshare⟩, hrows, htotal, heffective,
      pure_eq_ok.1 h⟩
  · rintro ⟨share, rows, total, effective, hshare, hrows, htotal, heffective, rfl⟩
    obtain ⟨rate, hrate, hshare⟩ := bind_eq_ok.1 hshare
    rw [← gross_of_occupied hrows] at htotal
    exact bind_eq_ok.2 ⟨rate, hrate, bind_eq_ok.2 ⟨share, hshare, bind_eq_ok.2 ⟨rows, hrows,
      bind_eq_ok.2 ⟨total, htotal, bind_eq_ok.2 ⟨effective, heffective, rfl⟩⟩⟩⟩⟩

/-- The row is the other one with an effective income and a loss of its own. -/
def RevenueRow.Adjusts (row before : RevenueRow) : Prop :=
  { before with
    effectiveAnnualIncome := row.effectiveAnnualIncome, vacancyLoss := row.vacancyLoss } = row

/-- The stream is the other one at a rate in percent.  Its rows are those of the other, one by one, and the gross
revenue is the sum of the incomes that stood there before; nothing but the rows, the rate and the two revenues
differs. -/
structure RevenueStream.Adjusts (adjusted stream : RevenueStream) (percent : Decimal) : Prop where
  rows : List.Forall₂ RevenueRow.Adjusts adjusted.rows stream.rows
  gross : gross stream.rows = .ok adjusted.totals.grossRevenue
  same : { stream with
    rows := adjusted.rows, vacancyRate := some percent
    totals := { stream.totals with
      grossRevenue := adjusted.totals.grossRevenue
      effectiveRevenue := adjusted.totals.effectiveRevenue } } = adjusted

theorem adjusts_of_occupied (h : row.occupied share = .ok occupied) : occupied.Adjusts row := by
  obtain ⟨effective, loss, -, -, rfl⟩ := occupied_eq_ok_iff.1 h
  rfl

/-- No adjustment touches more of a stream than it computes. -/
theorem adjusts_of_adjusted (h : stream.adjusted percent = .ok adjusted) :
    adjusted.Adjusts stream percent := by
  obtain ⟨share, rows, total, effective, -, hrows, htotal, -, rfl⟩ := adjusted_eq_ok_iff.1 h
  exact ⟨(mapM_eq_ok_iff.1 hrows).flip.imp fun _ _ hrow => adjusts_of_occupied hrow, htotal, rfl⟩

theorem adjusts_of_withVacancy {rate fallback : Payload} (hrate : Accepted rate fallback percent)
    (h : stream.withVacancy rate fallback = .ok adjusted) : adjusted.Adjusts stream percent := by
  obtain ⟨taken, htaken, hadjusted⟩ := withVacancy_eq_ok_iff.1 h
  obtain rfl := Option.some.inj (htaken.amount.symm.trans hrate.amount)
  exact adjusts_of_adjusted hadjusted

theorem RevenueStream.Adjusts.map_annualIncome (h : adjusted.Adjusts stream percent) :
    adjusted.rows.map RevenueRow.annualIncome = stream.rows.map RevenueRow.annualIncome := by
  rw [← List.forall₂_eq_eq_eq, List.forall₂_map_left_iff, List.forall₂_map_right_iff]
  exact h.rows.imp fun _ _ hrow => (congrArg RevenueRow.annualIncome hrow).symm

/-! ## Adjusting again -/

/-- The fields that are rewritten are never read. -/
theorem occupied_of_occupied (h : row.occupied share = .ok occupied) (later : Decimal) :
    occupied.occupied later = row.occupied later := by
  obtain ⟨effective, loss, -, -, rfl⟩ := occupied_eq_ok_iff.1 h
  rfl

theorem mapM_occupied_of_occupied {rows results : List RevenueRow}
    (h : rows.mapM (fun row => row.occupied share) = .ok results) (later : Decimal) :
    results.mapM (fun row => row.occupied later) = rows.mapM (fun row => row.occupied later) := by
  rw [mapM_eq_ok_iff] at h
  induction h with
  | nil => rfl
  | cons hfirst _ ih => rw [List.mapM_cons, List.mapM_cons, occupied_of_occupied hfirst, ih]

/-- An adjustment starts from the full incomes, which an earlier one has left alone. -/
theorem adjusted_of_adjusted (h : stream.adjusted percent = .ok adjusted) (later : Decimal) :
    adjusted.adjusted later = stream.adjusted later := by
  obtain ⟨share, rows, total, effective, -, hrows, -, -, rfl⟩ := adjusted_eq_ok_iff.1 h
  unfold RevenueStream.adjusted
  simp only [mapM_occupied_of_occupied hrows]

/-- Of two adjustments in a row only the second one counts. -/
theorem withVacancy_of_withVacancy {rate fallback : Payload}
    (h : stream.withVacancy rate fallback = .ok adjusted) (later laterFallback : Payload) :
    adjusted.withVacancy later laterFallback = stream.withVacancy later laterFallback := by
  obtain ⟨percent, -, hadjusted⟩ := withVacancy_eq_ok_iff.1 h
  have hid : adjusted.id = stream.id := by
    obtain ⟨share, rows, total, effective, -, -, -, -, rfl⟩ := adjusted_eq_ok_iff.1 hadjusted
    rfl
  unfold RevenueStream.withVacancy
  simp only [adjusted_of_adjusted hadjusted, hid]

/-- After a stream has been adjusted however often, adjusting it once more comes to the same as adjusting the
stream of the beginning. -/
theorem withVacancy_of_foldlM {rates : List (Payload × Payload)}
    (h : rates.foldlM (fun stream rate => stream.withVacancy rate.1 rate.2) stream = .ok adjusted)
    (later laterFallback : Payload) :
    adjusted.withVacancy later laterFallback = stream.withVacancy later laterFallback := by
  refine foldlM_invariant (fun _ (state : RevenueStream) =>
    state.withVacancy later laterFallback = stream.withVacancy later laterFallback) rfl ?_ h
  intro before rate after state next _ hstate hnext
  exact (withVacancy_of_withVacancy hnext later laterFallback).trans hstate

/-- An adjusted stream forgets the rate: a later adjustment, whether it is accepted or refused, has the outcome
that it has on the stream before, and repeating an adjustment changes nothing. -/
theorem withVacancy_forgets {rate fallback : Payload}
    (h : stream.withVacancy rate fallback = .ok adjusted) :
    (∀ later laterFallback, adjusted.withVacancy later laterFallback =
      stream.withVacancy later laterFallback) ∧
      adjusted.withVacancy rate fallback = .ok adjusted :=
  ⟨withVacancy_of_withVacancy h, (withVacancy_of_withVacancy h rate fallback).trans h⟩

/-- A row of a stream, with an effective income and a loss of another time. -/
def staleRow (id : String) (income effective loss : Decimal) : RevenueRow :=
  { id, unit := id, annualIncome := income, monthlyRate := .zero, effectiveAnnualIncome := effective
    squareFeet := none, isVacant := false, vacancyLoss := loss, tenantName := some id, source := none }

/-- A stream that has been adjusted before, with totals that do not belong to its rows. -/
def staleStream : RevenueStream :=
  { id := "stream-office", name := "Office", category := .commercial
    rows := [staleRow "suite" (.finite false 10000050 (-2)) (.ofInt 1) (.ofInt 2),
      staleRow "kiosk" (.ofInt 12000) .zero (.ofInt (-3))]
    totals := { grossRevenue := .ofInt 7, effectiveRevenue := .ofInt 8, squareFootage := .ofInt 900 }
    vacancyRate := some (.ofInt 40) }

/-- Seven percent replace five: what is left is 0.93 of the incomes, not 0.93 of 0.95. -/
theorem withVacancy_forgets_stale :
    ∃ first second, staleStream.withVacancy (.int 5) .null = .ok first ∧
      first.withVacancy (.text "7") .null = .ok second ∧
      staleStream.withVacancy (.text "7") .null = .ok second ∧
      second.totals.effectiveRevenue.compare? (.finite false 10416046500 (-5)) = some .eq := by
  have hfirst : (staleStream.withVacancy (.int 5) .null).toOption.isSome = true := by decide +kernel
  have hsecond : ((staleStream.withVacancy (.text "7") .null).toOption.bind fun second =>
      second.totals.effectiveRevenue.compare? (.finite false 10416046500 (-5))) = some .eq := by
    decide +kernel
  obtain ⟨first, hfirst⟩ := Option.isSome_iff_exists.1 hfirst
  obtain ⟨second, hsecond, hrevenue⟩ := Option.bind_eq_some_iff.1 hsecond
  rw [toOption_eq_some] at hfirst hsecond
  exact ⟨first, second, hfirst, ((withVacancy_forgets hfirst).1 _ _).trans hsecond, hsecond, hrevenue⟩

end Income
end Appraisal
