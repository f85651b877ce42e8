import Appraisal.Proofs.Decimal.Exact
import Appraisal.Proofs.Income.Adjustment

/-!
# No money is lost to vacancy

The effective income and the loss of a row are computed from the row, the effective revenue of the stream from
the total of all rows.  When the incomes and the rate have so few places that nothing is rounded, the two
parts of each row make up its income, and the totals are the sums of what the rows say.
-/

namespace Appraisal
namespace Income

open Decimal (precision)

variable {stream : RevenueStream} {row : RevenueRow} {percent share total : Decimal}
variable {places ratePlaces : Nat} {units lost : Int}

/-- A share of the units is not more than all of them. -/
theorem natAbs_mul_lt_of_share (kept : Int) (hkept : 0 ≤ kept) (hle : kept ≤ 10 ^ ratePlaces)
    (hunits : units.natAbs * 10 ^ ratePlaces < tenTo precision) :
    (units * kept).natAbs < tenTo precision := by
  have hbound : kept.natAbs ≤ 10 ^ ratePlaces := by
    have hcast : ((10 ^ ratePlaces : Nat) : Int) = 10 ^ ratePlaces := by push_cast; rfl
    omega
  rw [Int.natAbs_mul]
  exact (Nat.mul_le_mul_left _ hbound).trans_lt hunits

/-- A rate that is known exactly leaves an exact share. -/
theorem keptShare_exact (hpercent : percent.Counts ratePlaces (lost * 100))
    (hplaces : ratePlaces ≤ 1000026) (hrate : 10 ^ ratePlaces < tenTo precision) (hlost : 0 ≤ lost)
    (hle : lost ≤ 10 ^ ratePlaces) :
    ∃ share, keptShare percent = .ok share ∧ share.Counts ratePlaces (10 ^ ratePlaces - lost) := by
  have hpower : ((10 ^ ratePlaces : Nat) : Int) = 10 ^ ratePlaces := by push_cast; rfl
  obtain ⟨rate, hrateEq, hrateCounts⟩ :=
    hpercent.div hplaces (Decimal.counts_ofInt 100) (by decide) (by omega)
  have hone := (Decimal.counts_ofInt 1).refine ratePlaces
  rw [Nat.zero_add, one_mul] at hone
  obtain ⟨share, hshare, hshareCounts⟩ := hone.sub hplaces hrateCounts (by omega)
  exact ⟨share, bind_eq_ok.2 ⟨rate, hrateEq, hshare⟩, hshareCounts⟩

/-! ## Rows -/

/-- The income of the row is split into the share that is kept and the loss. -/
structure RevenueRow.Split (share : Decimal) (row : RevenueRow) : Prop where
  isFinite : row.effectiveAnnualIncome.isFinite = true ∧ row.vacancyLoss.isFinite = true
  effective : row.effectiveAnnualIncome.value = row.annualIncome.value * share.value
  loss : row.vacancyLoss.value = row.annualIncome.value - row.effectiveAnnualIncome.value

/-- The rows can be split without rounding. -/
def Splittable (places ratePlaces : Nat) (row : RevenueRow) : Prop :=
  ∃ units, row.annualIncome.Counts places units ∧ units.natAbs * 10 ^ ratePlaces < tenTo precision

/-- Neither the product nor the difference is rounded, so the parts make up the income. -/
theorem exists_occupied (hrow : Splittable places ratePlaces row)
    (hshare : share.Counts ratePlaces (10 ^ ratePlaces - lost)) (hplaces : places + ratePlaces ≤ 1000026)
    (hlost : 0 ≤ lost) (hle : lost ≤ 10 ^ ratePlaces) :
    ∃ occupied, row.occupied share = .ok occupied ∧ occupied.Split share := by
  obtain ⟨units, hincome, hfew⟩ := hrow
  obtain ⟨effective, heffective, heffectiveCounts⟩ := hincome.mul hplaces hshare
    (natAbs_mul_lt_of_share _ (by omega) (by omega) hfew)
  -- What is lost is the income times the rate, in units of both grids.
  have hrest : units * 10 ^ ratePlaces - units * (10 ^ ratePlaces - lost) = units * lost := by ring
  obtain ⟨loss, hloss, hlossCounts⟩ := (hincome.refine ratePlaces).sub hplaces heffectiveCounts
    (hrest ▸ natAbs_mul_lt_of_share lost hlost hle hfew)
  refine ⟨_, occupied_eq_ok_iff.2 ⟨effective, loss, heffective, hloss, rfl⟩,
    ⟨heffectiveCounts.1, hlossCounts.1⟩, heffectiveCounts.value_eq_of_mul ?_,
    hlossCounts.value_eq_of_mul ?_⟩
  · rw [pow_add, Int.cast_mul, ← hincome.2, ← hshare.2]
    ring
  · rw [sub_mul, (hincome.refine ratePlaces).2, heffectiveCounts.2, Int.cast_sub]

/-! ## Streams -/

/-- A stream after vacancy, when the incomes and the rate are known exactly. -/
theorem exists_adjusted (stream : RevenueStream)
    (hrows : ∀ row ∈ stream.rows, Splittable places ratePlaces row)
    (htotal : gross stream.rows = .ok total) (htotalCounts : total.Counts places units)
    (hunits : units.natAbs * 10 ^ ratePlaces < tenTo precision)
    (hpercent : percent.Counts ratePlaces (lost * 100)) (hplaces : places + ratePlaces ≤ 1000026)
    (hrate : 10 ^ ratePlaces < tenTo precision) (hlost : 0 ≤ lost) (hle : lost ≤ 10 ^ ratePlaces) :
    ∃ share adjusted, share.Counts ratePlaces (10 ^ ratePlaces - lost) ∧
      stream.adjusted percent = .ok adjusted ∧ (∀ row ∈ adjusted.rows, row.Split share) ∧
      adjusted.totals.grossRevenue = total ∧
      adjusted.totals.effectiveRevenue.Counts (places + ratePlaces)
        (units * (10 ^ ratePlaces - lost)) := by
  obtain ⟨share, hshare, hshareCounts⟩ :=
    keptShare_exact hpercent (by omega) hrate hlost hle
  have hsplit : ∀ row ∈ stream.rows, ∃ occupied, row.occupied share = .ok occupied ∧
      occupied.Split share :=
    fun row hrow => exists_occupied (hrows row hrow) hshareCounts hplaces hlost hle
  obtain ⟨rows, hoccupied⟩ : Returns (stream.rows.mapM fun row => row.occupied share) :=
    mapM_returns_iff.2 fun row hrow => (hsplit row hrow).imp fun _ h => h.1
  obtain ⟨effective, heffective, heffectiveCounts⟩ := htotalCounts.mul hplaces hshareCounts
    (natAbs_mul_lt_of_share _ (by omega) (by omega) hunits)
  refine ⟨share, _, hshareCounts, adjusted_eq_ok_iff.2 ⟨share, rows, total, effective, hshare, hoccupied,
    htotal, heffective, rfl⟩, fun row hrow => ?_, rfl, heffectiveCounts⟩
  -- Every adjusted row stems from a row of the stream.
  obtain ⟨before, hbefore, hrow⟩ := exists_of_mem_mapM hoccupied hrow
  obtain ⟨occupied, heq, hoccupiedSplit⟩ := hsplit before hbefore
  obtain rfl := Except.ok.inj (heq.symm.trans hrow)
  exact hoccupiedSplit

/-- The books of the stream balance: all numbers are finite, the parts of each row make up its income, and the
totals are the sums over the rows. -/
structure RevenueStream.Balanced (stream : RevenueStream) : Prop where
  rows : ∀ row ∈ stream.rows, row.effectiveAnnualIncome.isFinite = true ∧
    row.vacancyLoss.isFinite = true ∧
    row.effectiveAnnualIncome.value + row.vacancyLoss.value = row.annualIncome.value
  isFinite : stream.totals.grossRevenue.isFinite = true ∧ stream.totals.effectiveRevenue.isFinite = true
  effective : stream.totals.effectiveRevenue.value =
    (stream.rows.map fun row => row.effectiveAnnualIncome.value).sum
  /-- What is missing from the gross revenue is the sum of the losses. -/
  loss : stream.totals.grossRevenue.value - stream.totals.effectiveRevenue.value =
    (stream.rows.map fun row => row.vacancyLoss.value).sum

/-- The rows of a stream balance when each is split and the totals follow from the sum of their incomes. -/
theorem balanced_of_split (hrows : ∀ row ∈ stream.rows, row.Split share)
    (hfinite : stream.totals.grossRevenue.isFinite = true ∧
      stream.totals.effectiveRevenue.isFinite = true)
    (hgross : stream.totals.grossRevenue.value =
      (stream.rows.map fun row => row.annualIncome.value).sum)
    (heffective : stream.totals.effectiveRevenue.value =
      stream.totals.grossRevenue.value * share.value) : stream.Balanced := by
  have heffectiveSum : stream.totals.effectiveRevenue.value =
      (stream.rows.map fun row => row.effectiveAnnualIncome.value).sum := by
    rw [heffective, hgross, ← List.sum_map_mul_right]
    exact congrArg _ (List.map_congr_left fun row hrow => (hrows row hrow).effective.symm)
  -- Nothing is rounded here, so the sums are those of the rows.
  have hlossSum : (stream.rows.map fun row => row.vacancyLoss.value).sum =
      (stream.rows.map fun row => row.annualIncome.value).sum -
        (stream.rows.map fun row => row.effectiveAnnualIncome.value).sum := by
    rw [eq_sub_iff_add_eq, ← List.sum_map_add]
    exact congrArg _ (List.map_congr_left fun row hrow => by rw [(hrows row hrow).loss, sub_add_cancel])
  refine ⟨fun row hrow => ?_, hfinite, heffectiveSum, ?_⟩
  · obtain ⟨⟨heffectiveFinite, hlossFinite⟩, -, hloss⟩ := hrows row hrow
    exact ⟨heffectiveFinite, hlossFinite, by rw [hloss, add_sub_cancel]⟩
  · rw [hlossSum, ← hgross, ← heffectiveSum]

/-- The percentage in units of a place that the division by a hundred cannot leave. -/
theorem Accepted.counts {rate fallback : Payload} (h : Accepted rate fallback percent)
    (hcounts : percent.Counts ratePlaces units) :
    percent.Counts (ratePlaces + 2) (units * 100) ∧ 0 ≤ units ∧ units ≤ 10 ^ (ratePlaces + 2) := by
  obtain ⟨hnonneg, hmost⟩ := h.value_mem
  have hscale : (0 : ℚ) < 10 ^ ratePlaces := by positivity
  have hlow := mul_nonneg hnonneg hscale.le
  have hhigh := mul_le_mul_of_nonneg_right hmost hscale.le
  rw [hcounts.2] at hlow hhigh
  refine ⟨hcounts.refine 2, by exact_mod_cast hlow, ?_⟩
  have hcast : (units : ℚ) ≤ ((10 ^ (ratePlaces + 2) : Int) : ℚ) := by
    push_cast
    rw [pow_add]
    linarith
  exact_mod_cast hcast

/-- An adjustment for vacancy loses no money when the incomes and the rate have few places and the incomes are
moderate: every row of the stream is still there with its income, the gross revenue is the sum of all incomes,
and the books balance. -/
theorem withVacancy_balanced {rate fallback : Payload} (hrate : Accepted rate fallback percent)
    (hpercent : ∃ units, percent.Counts ratePlaces units)
    (hincomes : ∀ row ∈ stream.rows, ∃ units, row.annualIncome.Counts places units)
    (hplaces : places ≤ 10) (hratePlaces : ratePlaces ≤ 10)
    (hmoderate : (stream.rows.map fun row => |row.annualIncome.value|).sum <
      10 ^ ((26 : Int) - places - ratePlaces)) :
    ∃ adjusted, stream.withVacancy rate fallback = .ok adjusted ∧ adjusted.Adjusts stream percent ∧
      adjusted.totals.grossRevenue.value = (stream.rows.map fun row => row.annualIncome.value).sum ∧
      adjusted.Balanced := by
  obtain ⟨lost, hlost⟩ := hpercent
  obtain ⟨hpercentCounts, hlostNonneg, hlostLe⟩ := hrate.counts hlost
  choose! count hcounts using hincomes
  have hsum : (stream.rows.map fun row => (count row).natAbs).sum * 10 ^ (ratePlaces + 2) <
      tenTo precision := by
    refine Decimal.sum_natAbs_mul_lt hcounts ?_
    rwa [show (28 : Int) - places - (ratePlaces + 2 : Nat) = 26 - places - ratePlaces by omega]
  have hrows : ∀ row ∈ stream.rows, Splittable places (ratePlaces + 2) row := fun row hrow =>
    ⟨count row, hcounts row hrow,
      (Nat.mul_le_mul_right _ (Decimal.natAbs_le_sum count hrow)).trans_lt hsum⟩
  obtain ⟨total, htotal, htotalCounts⟩ := Decimal.counts_sum (by omega) hcounts
    ((Nat.le_mul_of_pos_right _ (by positivity)).trans_lt hsum)
  have hpower : 10 ^ (ratePlaces + 2) < tenTo precision :=
    Nat.pow_lt_pow_right (by decide) (by show _ < 28; omega)
  obtain ⟨share, adjusted, hshare, hadjusted, hsplit, rfl, heffective⟩ :=
    exists_adjusted stream hrows htotal htotalCounts
      ((Nat.mul_le_mul_right _ (Decimal.natAbs_sum_le count _)).trans_lt hsum) hpercentCounts
      (by omega) hpower hlostNonneg hlostLe
  have hadjusts := adjusts_of_adjusted hadjusted
  have hgross := htotalCounts.value_eq_sum hcounts
  refine ⟨adjusted, withVacancy_eq_ok_iff.2 ⟨percent, hrate, hadjusted⟩, hadjusts, hgross,
    balanced_of_split hsplit ⟨htotalCounts.1, heffective.1⟩ ?_ (heffective.value_eq_of_mul ?_)⟩
  · have hvalues := congrArg (List.map Decimal.value) hadjusts.map_annualIncome
    rw [List.map_map, List.map_map] at hvalues
    exact hgross.trans (congrArg _ hvalues.symm)
  · rw [pow_add, Int.cast_mul, ← htotalCounts.2, ← hshare.2]
    ring

/-- At 7.25 percent the stale stream keeps its incomes and balances, whatever its rows and totals said before. -/
theorem withVacancy_balanced_stale :
    ∃ adjusted, staleStream.withVacancy (.text "7.25") .null = .ok adjusted ∧
      adjusted.Adjusts staleStream (.finite false 725 (-2)) ∧
      adjusted.totals.grossRevenue.value =
        (staleStream.rows.map fun row => row.annualIncome.value).sum ∧
      adjusted.Balanced := by
  have hrate : Accepted (.text "7.25") .null (.finite false 725 (-2)) :=
    ⟨by decide +kernel, by decide +kernel⟩
  have hpercent : (Decimal.finite false 725 (-2)).Counts 2 725 :=
    ⟨rfl, by norm_num [Decimal.value, Decimal.signed]⟩
  have hsuite : (Decimal.finite false 10000050 (-2)).Counts 2 10000050 :=
    ⟨rfl, by norm_num [Decimal.value, Decimal.signed]⟩
  have hkiosk : (Decimal.ofInt 12000).Counts 2 1200000 := (Decimal.counts_ofInt 12000).refine 2
  refine withVacancy_balanced hrate ⟨725, hpercent⟩ ?_ (show 2 ≤ 10 by decide) (by decide) ?_
  · simp only [staleStream, staleRow, List.forall_mem_cons]
    exact ⟨⟨_, hsuite⟩, ⟨_, hkiosk⟩, by simp⟩
  · simp only [staleStream, staleRow, List.map_cons, List.map_nil, List.sum_cons, List.sum_nil,
      hsuite.value_eq, hkiosk.value_eq]
    norm_num

end Income
end Appraisal
