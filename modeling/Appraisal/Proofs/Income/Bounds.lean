import Appraisal.Proofs.Decimal.Correct
import Appraisal.Proofs.Income.Adjustment

/-!
# Vacancy takes no more than there is

Every step of an adjustment rounds: the division of the rate, the share that is kept, the effective incomes,
the losses and the totals.  Rounding never decreases and leaves what can be held where it is, so the parts of
an income stay between zero and the income, and a higher rate never leaves more of it.  The sum of the incomes
cannot grow without limit either: it stops growing when its last digit stands above all digits of an income.
-/

namespace Appraisal
namespace Income

open Decimal (precision maxExponent nearest nearest_mono Held)
open Text (digitCount)

variable {stream adjusted : RevenueStream} {row occupied : RevenueRow}
variable {income percent share total : Decimal}

/-- An income that is not negative, with at most 28 digits and a moderate exponent. -/
def Moderate (income : Decimal) : Prop :=
  ∃ negative coefficient exponent, income = .finite negative coefficient exponent ∧
    digitCount coefficient ≤ 28 ∧ -900000 ≤ exponent ∧ exponent ≤ 900000 ∧ 0 ≤ income.value

/-- The place of the leading digit that no sum of such incomes exceeds. -/
def sumExponent : Int := 900057

theorem Moderate.isFinite (h : Moderate income) : income.isFinite = true := by
  obtain ⟨negative, coefficient, exponent, rfl, -⟩ := h
  rfl

theorem Moderate.nonneg (h : Moderate income) : 0 ≤ income.value := by
  obtain ⟨-, -, -, -, -, -, -, hnonneg⟩ := h
  exact hnonneg

theorem Moderate.held (h : Moderate income) : Held income.value := by
  obtain ⟨negative, coefficient, exponent, rfl, hdigits, hleast, -, -⟩ := h
  refine ⟨Decimal.signed negative coefficient, exponent, ?_, by show (-1000026 : Int) ≤ _; omega, rfl⟩
  have habs : (Decimal.signed negative coefficient).natAbs = coefficient := by
    cases negative <;> simp [Decimal.signed]
  rw [habs]
  exact (Decimal.lt_tenTo_digitCount coefficient).trans_le (Nat.pow_le_pow_right (by decide) hdigits)

/-- The digits of an income stand below the last digit that is kept of the largest sum. -/
theorem Moderate.le (h : Moderate income) : income.value ≤ 10 ^ (sumExponent - precision - 1) := by
  obtain ⟨negative, coefficient, exponent, rfl, hdigits, -, hmost, -⟩ := h
  have hlt := Decimal.magnitude_lt coefficient exponent
  rw [← Decimal.abs_value_finite negative] at hlt
  refine (le_abs_self _).trans (hlt.le.trans (zpow_le_zpow_right₀ (by norm_num) ?_))
  show _ ≤ (900057 - (28 : Nat) - 1 : Int)
  omega

theorem Moderate.lt (h : Moderate income) : income.value < 10 ^ maxExponent :=
  h.le.trans_lt (zpow_lt_zpow_right₀ (by norm_num) (by decide))

/-! ## The share that is kept -/

/-- What rounding makes of the share that is kept at a rate in percent. -/
def roundedShare (rate : ℚ) : ℚ :=
  nearest (1 - nearest (rate / 100))

theorem roundedShare_antitone : Antitone roundedShare := by
  intro rate later h
  refine nearest_mono (sub_le_sub_left (nearest_mono ?_) 1)
  exact div_le_div_of_nonneg_right h (by norm_num)

/-- Zero and one can be held, so rounding twice does not leave the interval. -/
theorem roundedShare_mem {rate : ℚ} (h : 0 ≤ rate ∧ rate ≤ 100) :
    0 ≤ roundedShare rate ∧ roundedShare rate ≤ 1 := by
  have hlow : 0 ≤ nearest (rate / 100) := Decimal.nearest_nonneg (div_nonneg h.1 (by norm_num))
  have hhigh : nearest (rate / 100) ≤ 1 := Decimal.held_one.nearest_le (by linarith)
  exact ⟨Decimal.nearest_nonneg (by linarith), Decimal.held_one.nearest_le (by linarith)⟩

/-- The share that is kept is computed without overflow, as one minus a hundredth of the rate, rounded twice.
-/
theorem exists_keptShare (hfinite : percent.isFinite = true) (h : 0 ≤ percent.value ∧ percent.value ≤ 100) :
    ∃ share, keptShare percent = .ok share ∧ share.isFinite = true ∧
      share.value = roundedShare percent.value := by
  have hone : (1 : ℚ) < 10 ^ maxExponent := by
    simpa using zpow_lt_zpow_right₀ (show (1 : ℚ) < 10 by norm_num) (show 0 < maxExponent by decide)
  have hrange : |percent.value / hundred.value| < 10 ^ maxExponent := by
    rw [value_hundred, abs_of_nonneg (div_nonneg h.1 (by norm_num))]
    linarith
  obtain ⟨rate, hrate, hrateFinite, hrateValue⟩ :=
    (Decimal.roundsTo_div hfinite rfl (by simp)).exists_ok hrange
  rw [value_hundred] at hrateValue
  -- The rounded rate stays between zero and one, as both are held exactly.
  have hlow : 0 ≤ rate.value := hrateValue ▸ Decimal.nearest_nonneg (div_nonneg h.1 (by norm_num))
  have hhigh : rate.value ≤ 1 := hrateValue ▸ Decimal.held_one.nearest_le (by linarith)
  have hrest : |Decimal.one.value - rate.value| < 10 ^ maxExponent := by
    rw [value_one, abs_of_nonneg (by linarith)]
    linarith
  obtain ⟨share, hshare, hshareFinite, hshareValue⟩ :=
    (Decimal.roundsTo_sub rfl hrateFinite).exists_ok hrest
  refine ⟨share, bind_eq_ok.2 ⟨rate, hrate, hshare⟩, hshareFinite, ?_⟩
  rw [hshareValue, value_one, hrateValue, roundedShare]

/-! ## Rows -/

/-- What rounding makes of the parts of a row. -/
structure RevenueRow.Rounded (share : ℚ) (row : RevenueRow) : Prop where
  moderate : Moderate row.annualIncome
  isFinite : row.effectiveAnnualIncome.isFinite = true ∧ row.vacancyLoss.isFinite = true
  effective : row.effectiveAnnualIncome.value = nearest (row.annualIncome.value * share)
  loss : row.vacancyLoss.value = nearest (row.annualIncome.value - row.effectiveAnnualIncome.value)

/-- The income can be held, so rounding the share of it does not exceed it. -/
theorem RevenueRow.Rounded.effective_mem {kept : ℚ} (h : row.Rounded kept) (hkept : 0 ≤ kept ∧ kept ≤ 1) :
    0 ≤ row.effectiveAnnualIncome.value ∧ row.effectiveAnnualIncome.value ≤ row.annualIncome.value := by
  have hincome := h.moderate.nonneg
  rw [h.effective]
  exact ⟨Decimal.nearest_nonneg (mul_nonneg hincome hkept.1),
    h.moderate.held.nearest_le (mul_le_of_le_one_right hincome hkept.2)⟩

theorem RevenueRow.Rounded.loss_mem {kept : ℚ} (h : row.Rounded kept) (hkept : 0 ≤ kept ∧ kept ≤ 1) :
    0 ≤ row.vacancyLoss.value ∧ row.vacancyLoss.value ≤ row.annualIncome.value := by
  obtain ⟨hlow, hhigh⟩ := h.effective_mem hkept
  rw [h.loss]
  exact ⟨Decimal.nearest_nonneg (by linarith), h.moderate.held.nearest_le (by linarith)⟩

/-- A row with a moderate income can be adjusted, and both parts are rounded once. -/
theorem exists_occupied_rounded (hincome : Moderate row.annualIncome) (hfinite : share.isFinite = true)
    (hshare : 0 ≤ share.value ∧ share.value ≤ 1) :
    ∃ occupied, row.occupied share = .ok occupied ∧ occupied.Rounded share.value := by
  have hnonneg := hincome.nonneg
  have hrange := hincome.lt
  have hproduct := mul_nonneg hnonneg hshare.1
  have hproductLe := mul_le_of_le_one_right hnonneg hshare.2
  obtain ⟨effective, heffective, heffectiveFinite, heffectiveValue⟩ :=
    (Decimal.roundsTo_mul hincome.isFinite hfinite).exists_ok
      (by rw [abs_of_nonneg hproduct]; linarith)
  have hlow : 0 ≤ effective.value := heffectiveValue ▸ Decimal.nearest_nonneg hproduct
  -- An income that is held exactly is not exceeded by a rounded part of it.
  have hhigh : effective.value ≤ row.annualIncome.value :=
    heffectiveValue ▸ hincome.held.nearest_le hproductLe
  obtain ⟨loss, hloss, hlossFinite, hlossValue⟩ :=
    (Decimal.roundsTo_sub hincome.isFinite heffectiveFinite).exists_ok
      (by rw [abs_of_nonneg (by linarith)]; linarith)
  exact ⟨_, occupied_eq_ok_iff.2 ⟨effective, loss, heffective, hloss, rfl⟩, hincome,
    ⟨heffectiveFinite, hlossFinite⟩, heffectiveValue, hlossValue⟩

/-! ## The sum of the incomes -/

/-- What is known of the sum of some moderate incomes. -/
structure Accumulated (total : Decimal) : Prop where
  isFinite : total.isFinite = true
  held : Held total.value
  nonneg : 0 ≤ total.value
  /-- However many incomes there are, it does not exceed this limit. -/
  le : total.value ≤ 10 ^ sumExponent

/-- However many incomes are added, the sum never passes the limit: far below half a unit, an income no longer
counts. -/
theorem Accumulated.add (htotal : Accumulated total) (hincome : Moderate income) :
    ∃ next, total.add income = .ok next ∧ Accumulated next := by
  have hnonneg := add_nonneg htotal.nonneg hincome.nonneg
  have hle : total.value + income.value ≤ 10 ^ sumExponent + 10 ^ (sumExponent - precision - 1) :=
    add_le_add htotal.le hincome.le
  -- Before it is rounded the sum may pass the limit, but not the largest number.
  have hrange : |total.value + income.value| < 10 ^ maxExponent := by
    have hsmall : (10 : ℚ) ^ (sumExponent - precision - 1) ≤ 10 ^ sumExponent :=
      zpow_le_zpow_right₀ (by norm_num) (by decide)
    have hlimit : (10 : ℚ) ^ (sumExponent + 1) < 10 ^ maxExponent :=
      zpow_lt_zpow_right₀ (by norm_num) (by decide)
    have hpos : (0 : ℚ) < 10 ^ sumExponent := by positivity
    rw [zpow_add_one₀ (by norm_num)] at hlimit
    rw [abs_of_nonneg hnonneg]
    linarith
  obtain ⟨next, hnext, hfinite, hvalue⟩ :=
    (Decimal.roundsTo_add htotal.isFinite hincome.isFinite).exists_ok hrange
  refine ⟨next, hnext, hfinite, ?_, ?_, ?_⟩ <;> rw [hvalue]
  · exact Decimal.held_nearest _
  · exact Decimal.nearest_nonneg hnonneg
  · exact Decimal.nearest_le_zpow (by decide) hle

theorem exists_gross {rows : List RevenueRow} (h : ∀ row ∈ rows, Moderate row.annualIncome) :
    ∃ total, gross rows = .ok total ∧ Accumulated total := by
  refine foldlM_exists (fun _ => Accumulated) ⟨rfl, ?_, ?_, ?_⟩ ?_
  · simpa using Decimal.held_zero
  · simp
  · rw [Decimal.value_zero]
    positivity
  · intro before income after total hrows htotal
    obtain ⟨row, hrow, rfl⟩ : ∃ row ∈ rows, row.annualIncome = income :=
      List.mem_map.1 (hrows ▸ by simp)
    exact htotal.add (h row hrow)

/-! ## Streams -/

/-- What rounding makes of the rows and the totals of a stream. -/
structure RevenueStream.Rounded (kept : ℚ) (stream : RevenueStream) : Prop where
  rows : ∀ row ∈ stream.rows, row.Rounded kept
  accumulated : Accumulated stream.totals.grossRevenue
  isFinite : stream.totals.effectiveRevenue.isFinite = true
  effective : stream.totals.effectiveRevenue.value = nearest (stream.totals.grossRevenue.value * kept)

/-- The adjustment of a stream with moderate incomes always succeeds. -/
theorem exists_withVacancy (hincomes : ∀ row ∈ stream.rows, Moderate row.annualIncome)
    {rate fallback : Payload} (hrate : Accepted rate fallback percent) :
    ∃ adjusted, stream.withVacancy rate fallback = .ok adjusted ∧
      adjusted.Rounded (roundedShare percent.value) := by
  have hkept := roundedShare_mem hrate.value_mem
  obtain ⟨share, hshare, hfinite, hvalue⟩ := exists_keptShare hrate.isFinite hrate.value_mem
  rw [← hvalue] at hkept ⊢
  have hoccupied : ∀ row ∈ stream.rows, ∃ occupied, row.occupied share = .ok occupied ∧
      occupied.Rounded share.value :=
    fun row hrow => exists_occupied_rounded (hincomes row hrow) hfinite hkept
  obtain ⟨rows, hrows⟩ : Returns (stream.rows.mapM fun row => row.occupied share) :=
    mapM_returns_iff.2 fun row hrow => (hoccupied row hrow).imp fun _ h => h.1
  obtain ⟨total, htotal, haccumulated⟩ := exists_gross hincomes
  -- The effective revenue is a share of the gross revenue, which keeps its own limit.
  have hproduct := mul_le_of_le_one_right haccumulated.nonneg hkept.2
  have hrange : |total.value * share.value| < 10 ^ maxExponent := by
    rw [abs_of_nonneg (mul_nonneg haccumulated.nonneg hkept.1)]
    exact (hproduct.trans haccumulated.le).trans_lt
      (zpow_lt_zpow_right₀ (by norm_num) (by decide))
  obtain ⟨effective, heffective, heffectiveFinite, heffectiveValue⟩ :=
    (Decimal.roundsTo_mul haccumulated.isFinite hfinite).exists_ok hrange
  refine ⟨_, withVacancy_eq_ok_iff.2 ⟨percent, hrate, adjusted_eq_ok_iff.2 ⟨share, rows, total, effective,
    hshare, hrows, htotal, heffective, rfl⟩⟩, fun occupied hmem => ?_, haccumulated, heffectiveFinite,
    heffectiveValue⟩
  obtain ⟨row, hrow, hresult⟩ := exists_of_mem_mapM hrows hmem
  obtain ⟨result, heq, hrounded⟩ := hoccupied row hrow
  obtain rfl := Except.ok.inj (heq.symm.trans hresult)
  exact hrounded

/-! ## Bounds -/

/-- The parts of the row lie between zero and its income. -/
structure RevenueRow.Bounded (row : RevenueRow) : Prop where
  effective_nonneg : Decimal.zero.le? row.effectiveAnnualIncome = .ok true
  effective_le : row.effectiveAnnualIncome.le? row.annualIncome = .ok true
  loss_nonneg : Decimal.zero.le? row.vacancyLoss = .ok true
  loss_le : row.vacancyLoss.le? row.annualIncome = .ok true

/-- The rows are bounded, and the effective revenue lies between zero and the gross revenue. -/
structure RevenueStream.Bounded (stream : RevenueStream) : Prop where
  rows : ∀ row ∈ stream.rows, row.Bounded
  revenue_nonneg : Decimal.zero.le? stream.totals.effectiveRevenue = .ok true
  revenue_le : stream.totals.effectiveRevenue.le? stream.totals.grossRevenue = .ok true

theorem RevenueRow.Rounded.bounded {kept : ℚ} (h : row.Rounded kept) (hkept : 0 ≤ kept ∧ kept ≤ 1) :
    row.Bounded := by
  obtain ⟨heffectiveLow, heffectiveHigh⟩ := h.effective_mem hkept
  obtain ⟨hlossLow, hlossHigh⟩ := h.loss_mem hkept
  have hzero : Decimal.zero.isFinite = true := rfl
  exact ⟨(Decimal.le?_eq_true_iff hzero h.isFinite.1).2 (by rwa [Decimal.value_zero]),
    (Decimal.le?_eq_true_iff h.isFinite.1 h.moderate.isFinite).2 heffectiveHigh,
    (Decimal.le?_eq_true_iff hzero h.isFinite.2).2 (by rwa [Decimal.value_zero]),
    (Decimal.le?_eq_true_iff h.isFinite.2 h.moderate.isFinite).2 hlossHigh⟩

theorem RevenueStream.Rounded.bounded {kept : ℚ} (h : stream.Rounded kept)
    (hkept : 0 ≤ kept ∧ kept ≤ 1) : stream.Bounded := by
  have hnonneg := h.accumulated.nonneg
  refine ⟨fun row hrow => (h.rows row hrow).bounded hkept,
    (Decimal.le?_eq_true_iff rfl h.isFinite).2 ?_,
    (Decimal.le?_eq_true_iff h.isFinite h.accumulated.isFinite).2 ?_⟩ <;> rw [h.effective]
  · rw [Decimal.value_zero]
    exact Decimal.nearest_nonneg (mul_nonneg hnonneg hkept.1)
  · exact h.accumulated.held.nearest_le (mul_le_of_le_one_right hnonneg hkept.2)

/-! ## A higher rate -/

/-- The row is the other one with at most its effective income and at least its loss. -/
structure RevenueRow.EarnsAtMost (row other : RevenueRow) : Prop where
  same : row.Adjusts other
  effective : row.effectiveAnnualIncome.le? other.effectiveAnnualIncome = .ok true
  loss : other.vacancyLoss.le? row.vacancyLoss = .ok true

/-- The rows earn at most what those of the other stream earn, and so do all together. -/
structure RevenueStream.EarnsAtMost (stream other : RevenueStream) : Prop where
  rows : List.Forall₂ RevenueRow.EarnsAtMost stream.rows other.rows
  revenue : stream.totals.effectiveRevenue.le? other.totals.effectiveRevenue = .ok true

/-- A smaller share earns a row no more and loses it no less, since rounding never decreases. -/
theorem earnsAtMost_of_occupied {less : RevenueRow} {later : Decimal} {kept keptLater : ℚ}
    (h : row.occupied share = .ok occupied) (hless : row.occupied later = .ok less)
    (hrounded : occupied.Rounded kept) (hroundedLess : less.Rounded keptLater)
    (hkept : keptLater ≤ kept) : less.EarnsAtMost occupied := by
  have hincome : less.annualIncome = occupied.annualIncome := by
    rw [annualIncome_of_occupied hless, annualIncome_of_occupied h]
  have heffective : less.effectiveAnnualIncome.value ≤ occupied.effectiveAnnualIncome.value := by
    rw [hroundedLess.effective, hrounded.effective, hincome]
    exact nearest_mono (mul_le_mul_of_nonneg_left hkept hrounded.moderate.nonneg)
  refine ⟨?_, (Decimal.le?_eq_true_iff hroundedLess.isFinite.1 hrounded.isFinite.1).2 heffective,
    (Decimal.le?_eq_true_iff hrounded.isFinite.2 hroundedLess.isFinite.2).2 ?_⟩
  · obtain ⟨effective, loss, -, -, rfl⟩ := occupied_eq_ok_iff.1 h
    obtain ⟨effectiveLess, lossLess, -, -, rfl⟩ := occupied_eq_ok_iff.1 hless
    rfl
  · rw [hrounded.loss, hroundedLess.loss, hincome]
    exact nearest_mono (sub_le_sub_left heffective _)

theorem earnsAtMost_of_adjusted {less : RevenueStream} {later : Decimal} {kept keptLater : ℚ}
    (h : stream.adjusted percent = .ok adjusted) (hless : stream.adjusted later = .ok less)
    (hrounded : adjusted.Rounded kept) (hroundedLess : less.Rounded keptLater)
    (hkept : keptLater ≤ kept) : less.EarnsAtMost adjusted := by
  obtain ⟨share, rows, total, effective, -, hrows, htotal, -, rfl⟩ := adjusted_eq_ok_iff.1 h
  obtain ⟨shareLess, rowsLess, totalLess, effectiveLess, -, hrowsLess, htotalLess, -, rfl⟩ :=
    adjusted_eq_ok_iff.1 hless
  obtain rfl := Except.ok.inj (htotal.symm.trans htotalLess)
  refine ⟨?_, (Decimal.le?_eq_true_iff hroundedLess.isFinite hrounded.isFinite).2 ?_⟩
  -- Both streams come from the same rows, so the adjusted rows stand side by side.
  · exact forall₂_of_mapM hrowsLess hrows fun row other hother result hresult hless hrow =>
      earnsAtMost_of_occupied hrow hless (hrounded.rows result hresult) (hroundedLess.rows other hother)
        hkept
  · rw [hroundedLess.effective, hrounded.effective]
    exact nearest_mono (mul_le_mul_of_nonneg_left hkept hrounded.accumulated.nonneg)

/-- An accepted rate adjusts every stream of moderate incomes; every row stays with its income, what is kept and
taken of it lies between zero and what there is, and a higher rate keeps at most as much of each income and takes
at least as much. -/
theorem withVacancy_bounded_monotone (hincomes : ∀ row ∈ stream.rows, Moderate row.annualIncome) :
    (∀ rate fallback percent, Accepted rate fallback percent →
      ∃ adjusted, stream.withVacancy rate fallback = .ok adjusted ∧ adjusted.Adjusts stream percent ∧
        adjusted.Bounded) ∧
      ∀ rate fallback percent later laterFallback laterPercent, Accepted rate fallback percent →
        Accepted later laterFallback laterPercent → percent.le? laterPercent = .ok true →
        ∃ adjusted less, stream.withVacancy rate fallback = .ok adjusted ∧
          stream.withVacancy later laterFallback = .ok less ∧ less.EarnsAtMost adjusted := by
  constructor
  · intro rate fallback percent hrate
    obtain ⟨adjusted, hadjusted, hrounded⟩ := exists_withVacancy hincomes hrate
    exact ⟨adjusted, hadjusted, adjusts_of_withVacancy hrate hadjusted,
      hrounded.bounded (roundedShare_mem hrate.value_mem)⟩
  · intro rate fallback percent later laterFallback laterPercent hrate hlater hle
    obtain ⟨adjusted, hadjusted, hrounded⟩ := exists_withVacancy hincomes hrate
    obtain ⟨less, hless, hroundedLess⟩ := exists_withVacancy hincomes hlater
    -- Both rates adjust the same stream, so the results are compared row by row.
    rw [Decimal.le?_eq_true_iff hrate.isFinite hlater.isFinite] at hle
    obtain ⟨_, -, hadjustedBy⟩ := withVacancy_eq_ok_iff.1 hadjusted
    obtain ⟨_, -, hlessBy⟩ := withVacancy_eq_ok_iff.1 hless
    exact ⟨adjusted, less, hadjusted, hless, earnsAtMost_of_adjusted hadjustedBy hlessBy hrounded
      hroundedLess (roundedShare_antitone hle)⟩

/-- Five percent, and a rate of 34 digits that is as good as all. -/
theorem withVacancy_bounded_monotone_stale :
    ∃ adjusted less, staleStream.withVacancy (.int 5) .null = .ok adjusted ∧
      adjusted.Adjusts staleStream (.ofInt 5) ∧ adjusted.Bounded ∧
      staleStream.withVacancy (.text "99.99999999999999999999999999999999") .null = .ok less ∧
      less.Bounded ∧ less.EarnsAtMost adjusted := by
  have hincomes : ∀ row ∈ staleStream.rows, Moderate row.annualIncome := by
    simp only [staleStream, staleRow, List.forall_mem_cons]
    refine ⟨⟨_, _, _, rfl, by decide +kernel, by decide, by decide, ?_⟩,
      ⟨_, _, _, rfl, by decide +kernel, by decide, by decide, ?_⟩, by simp⟩ <;>
      norm_num [Decimal.value, Decimal.signed, Decimal.ofInt]
  obtain ⟨hbounded, hmonotone⟩ := withVacancy_bounded_monotone hincomes
  have hrate : Accepted (.int 5) .null (.ofInt 5) := ⟨by decide +kernel, by decide +kernel⟩
  have hlater : Accepted (.text "99.99999999999999999999999999999999") .null
      (.finite false 9999999999999999999999999999999999 (-32)) := ⟨by decide +kernel, by decide +kernel⟩
  obtain ⟨adjusted, less, hadjusted, hless, hearns⟩ :=
    hmonotone _ _ _ _ _ _ hrate hlater (by decide +kernel)
  obtain ⟨other, hother, hadjusts, hadjustedBounded⟩ := hbounded _ _ _ hrate
  obtain rfl := Except.ok.inj (hadjusted.symm.trans hother)
  obtain ⟨other, hother, -, hlessBounded⟩ := hbounded _ _ _ hlater
  obtain rfl := Except.ok.inj (hless.symm.trans hother)
  exact ⟨_, _, hadjusted, hadjusts, hadjustedBounded, hless, hlessBounded, hearns⟩

end Income
end Appraisal
