import Appraisal.Income.ModuleData
import Appraisal.Proofs.Income.Conservation
import Appraisal.Proofs.Income.Grouping
import Appraisal.Proofs.Model.Assembly
import Appraisal.Proofs.UserInput.RawInputs

/-!
# Two ways to the effective income

The formulas take the vacancy allowance off the gross income; the income module multiplies the gross income
by what is left of one.  The rate comes to the formulas as a share and to the income module in percent, and
each has a stand-in of its own for a missing rate.  When the amounts and the rate have so few places that
nothing is rounded, both arrive at the same gross and the same effective income.
-/

namespace Appraisal
namespace Income

open Evaluation
open ModuleData (valuationNumber)

/-- The share of income that is lost to vacancy: the rate of the valuation, or else the configured one. -/
def vacancyShare (input : UserInput) (settings : Settings) : Decimal :=
  (valuationNumber input ValuationInputs.vacancyRate).getD settings.defaultVacancyRate

/-- The revenue and the vacancy rate have so few places that arithmetic on them is exact, and no further
input stands in their place. -/
structure Measured (input : UserInput) (settings : Settings) (places ratePlaces : Nat) : Prop where
  revenue : input.revenueItems ≠ []
  /-- Neither the total nor the rate is given under a name of further inputs. -/
  unshadowed : ∀ name ∈ ["totalRevenue", "vacancyRate"],
    name ∉ input.valuationExtensions.keys ∧ name ∉ input.propertyExtensions.keys
  /-- A configured rate that stands in for a missing one is the same in percent. -/
  percentage : valuationNumber input ValuationInputs.vacancyRate = none →
    settings.defaultVacancyRatePercent.isFinite = true ∧
      settings.defaultVacancyRatePercent.value = 100 * settings.defaultVacancyRate.value
  nonneg : 0 ≤ (vacancyShare input settings).value
  le_one : (vacancyShare input settings).value ≤ 1
  rate : ∃ units, (vacancyShare input settings).Counts ratePlaces units
  amounts : ∀ item ∈ input.revenueItems, ∃ units, item.amount.Counts places units
  places_le : places ≤ 20
  ratePlaces_le : ratePlaces ≤ 20
  moderate : (input.revenueItems.map fun item => |item.amount.value|).sum <
    10 ^ ((28 : Int) - places - ratePlaces)

/-! ## What both sides read -/

/-- The rate that formulas read is the one of the valuation inputs, which further inputs of the property
cannot hide. -/
theorem join_get?_vacancyRate {input : UserInput} {raw : Dictionary (Option Decimal)}
    (hraw : input.rawInputs = .ok raw)
    (hproperty : "vacancyRate" ∉ input.propertyExtensions.keys) :
    (raw.get? "vacancyRate").join = valuationNumber input ValuationInputs.vacancyRate := by
  unfold valuationNumber
  cases hinputs : input.valuationInputs with
  | some inputs =>
      have hfield : ("vacancyRate", inputs.vacancyRate) ∈ inputs.named := by
        simp [ValuationInputs.named]
      rw [UserInput.rawInputs_valuation hraw hinputs hfield]
      rfl
  | none =>
      obtain ⟨totals, htotals, -⟩ := UserInput.rawInputs_eq_ok.1 hraw
      -- No other part of the user input has a value of this name.
      have hvaluation : input.namedValuation = [] ∧ input.valuationExtensions = [] := by
        unfold UserInput.namedValuation UserInput.valuationExtensions
        rw [hinputs]
        exact ⟨rfl, rfl⟩
      have htotal : totals.get? "vacancyRate" = none := by
        rw [Dictionary.get?_eq_none_iff, UserInput.keys_totals htotals]
        decide
      have hnamed : input.namedProperty.number? "vacancyRate" = none := by
        rw [NamedValues.number?_eq_none_iff]
        intro hmem
        have hother := UserInput.keys_namedProperty_subset input hmem
        revert hother
        decide
      rw [UserInput.get?_rawInputs htotals hraw, hvaluation.1, hvaluation.2, htotal, hnamed,
        (Dictionary.get?_eq_none_iff _ _).2 hproperty]
      rfl

/-- The revenue that formulas read is the sum of the revenue lines. -/
theorem join_get?_totalRevenue {input : UserInput} {raw : Dictionary (Option Decimal)}
    (hraw : input.rawInputs = .ok raw) (hrevenue : input.revenueItems ≠ [])
    (hvaluation : "totalRevenue" ∉ input.valuationExtensions.keys) :
    ∃ total, Decimal.sum (input.revenueItems.map LineItem.amount) = .ok total ∧
      (raw.get? "totalRevenue").join = some total := by
  have hpart : ("totalRevenue", input.revenueItems) ∈ input.sections := by
    simp [UserInput.sections]
  obtain ⟨total, htotal, hget⟩ := UserInput.rawInputs_total hraw hpart
  rw [(Dictionary.get?_eq_none_iff _ _).2 hvaluation, Option.elim_none] at hget
  unfold LineItem.total at htotal
  -- Without any revenue line there would be no total to read.
  cases hitems : input.revenueItems with
  | nil => exact absurd hitems hrevenue
  | cons item rest =>
      simp only [hitems] at htotal
      obtain ⟨sum, hsum, hsome⟩ := bind_eq_ok.1 htotal
      obtain rfl := pure_eq_ok.1 hsome
      exact ⟨sum, hsum, by rw [hget]; rfl⟩

/-! ## The side of the formulas -/

open Decimal (precision)

variable {places ratePlaces : Nat} {units lost : Int}

/-- A share of the gross income is exact when the units of both together are few. -/
theorem product_exact {gross share : Decimal} (hplaces : places + ratePlaces ≤ 1000026)
    (hgross : gross.Counts places units) (hshare : share.Counts ratePlaces lost)
    (hunits : units.natAbs < tenTo precision)
    (hproduct : (units * lost).natAbs < tenTo precision) :
    ∃ allowance, Decimal.product [gross, share] = .ok allowance ∧
      allowance.Counts (places + ratePlaces) (units * lost) := by
  have hone : Decimal.one.Counts 0 1 := Decimal.counts_ofInt 1
  obtain ⟨first, hfirst, hfirstCounts⟩ := hone.mul (by omega) hgross (by rwa [one_mul])
  rw [Nat.zero_add, one_mul] at hfirstCounts
  obtain ⟨allowance, hallowance, hcounts⟩ := hfirstCounts.mul hplaces hshare hproduct
  refine ⟨allowance, ?_, hcounts⟩
  exact bind_eq_ok.2 ⟨first, hfirst, bind_eq_ok.2 ⟨allowance, hallowance, rfl⟩⟩

/-- What the formulas make of a total and a share that are known exactly. -/
theorem solution_exact {usualRate : Decimal} {raw : Inputs} {values : String → Option Decimal}
    (hsolves : Solves (DirectCap.capitalization usualRate) raw values)
    {total share : Decimal} (htotal : raw "totalRevenue" = some total)
    (hshare : (raw "vacancyRate").or (some usualRate) = some share)
    (htotalCounts : total.Counts places units) (hshareCounts : share.Counts ratePlaces lost)
    (hplaces : places + ratePlaces ≤ 1000026) (hlost : 0 ≤ lost) (hle : lost ≤ 10 ^ ratePlaces)
    (hunits : units.natAbs * 10 ^ ratePlaces < tenTo precision) :
    ∃ gross effective, values "grossPotentialIncome" = some gross ∧ gross.Counts places units ∧
      values "effectiveGrossIncome" = some effective ∧
      effective.Counts (places + ratePlaces) (units * (10 ^ ratePlaces - lost)) := by
  have hfew : units.natAbs < tenTo precision :=
    (Nat.le_mul_of_pos_right _ (by positivity)).trans_lt hunits
  have hproduct := natAbs_mul_lt_of_share lost hlost hle hunits
  have hrest := natAbs_mul_lt_of_share (10 ^ ratePlaces - lost) (by omega) (by omega) hunits
  obtain ⟨gross, hgross, hgrossCounts⟩ := htotalCounts.sum_singleton (by omega) hfew
  obtain ⟨allowance, hallowance, hallowanceCounts⟩ :=
    product_exact hplaces hgrossCounts hshareCounts hfew hproduct
  obtain ⟨loss, hloss, hlossCounts⟩ := hallowanceCounts.sum_singleton hplaces hproduct
  have hdifference : units * 10 ^ ratePlaces - units * lost =
      units * (10 ^ ratePlaces - lost) := by ring
  obtain ⟨effective, heffective, heffectiveCounts⟩ :=
    (hgrossCounts.refine ratePlaces).sub hplaces hlossCounts (by rwa [hdifference])
  rw [hdifference] at heffectiveCounts
  -- Each formula reads what the one before it has found.
  have hgrossValue : values "grossPotentialIncome" = some gross := by
    refine (hsolves DirectCap.grossPotentialIncome (by simp [DirectCap.capitalization, DirectCap.formulas])).trans ?_
    exact DirectCap.outcome_grossPotentialIncome htotal hgross hgrossCounts.1
  have hallowanceValue : values "vacancyAllowance" = some allowance := by
    refine (hsolves (DirectCap.vacancyAllowance usualRate) (by simp [DirectCap.capitalization, DirectCap.formulas])).trans ?_
    exact DirectCap.outcome_vacancyAllowance hgrossValue hshare hallowance hallowanceCounts.1
  have heffectiveValue : values "effectiveGrossIncome" = some effective := by
    refine (hsolves DirectCap.effectiveGrossIncome (by simp [DirectCap.capitalization, DirectCap.formulas])).trans ?_
    exact DirectCap.outcome_effectiveGrossIncome hgrossValue hallowanceValue hloss heffective
      heffectiveCounts.1
  exact ⟨gross, effective, hgrossValue, hgrossCounts, heffectiveValue, heffectiveCounts⟩

/-! ## The side of the income module -/

/-- Amounts that count units make up a stream. -/
theorem exists_streamOf {items : List LineItem} {count : LineItem → Int} {total : Decimal}
    (hitems : ∀ item ∈ items, item.amount.Counts places (count item) ∧
      (count item).natAbs < tenTo precision)
    (htotal : Decimal.sum (items.map LineItem.amount) = .ok total) (id name : String)
    (category : StreamCategory) :
    ∃ stream, streamOf id name category items = .ok stream ∧
      stream.rows.map RevenueRow.annualIncome = items.map LineItem.amount := by
  -- A monthly rate is a twelfth of an amount with few digits, so it does not overflow.
  have hreturns : Returns (items.mapM rowOf) := by
    refine mapM_returns_iff.2 fun item hmem => ?_
    obtain ⟨hcounts, hfew⟩ := hitems item hmem
    obtain ⟨monthlyRate, hmonthly⟩ :=
      hcounts.returns_div_ofInt hfew (show (12 : Int) ≠ 0 by decide)
    exact ⟨_, bind_eq_ok.2 ⟨monthlyRate, hmonthly, rfl⟩⟩
  obtain ⟨rows, hrows⟩ := hreturns
  have hincomes := map_eq_of_mapM (fun _ _ h => (keeps_of_rowOf h).amount) hrows
  have hgross : gross rows = .ok total := by
    unfold gross
    rw [hincomes, htotal]
  exact ⟨_, bind_eq_ok.2 ⟨rows, hrows, bind_eq_ok.2 ⟨total, hgross, rfl⟩⟩, hincomes⟩

theorem isPercentage_exact {percent : Decimal} (hcounts : percent.Counts ratePlaces (lost * 100))
    (hlost : 0 ≤ lost) (hle : lost ≤ 10 ^ ratePlaces) : isPercentage percent = .ok true := by
  have hscale : (0 : ℚ) < 10 ^ ratePlaces := by positivity
  have hlostCast : (0 : ℚ) ≤ lost := by exact_mod_cast hlost
  have hleCast : (lost : ℚ) ≤ 10 ^ ratePlaces := by exact_mod_cast hle
  have hvalue := hcounts.value_eq
  push_cast at hvalue
  rw [isPercentage_eq_ok hcounts.1, hvalue, decide_eq_true]
  refine ⟨by positivity, ?_⟩
  rw [div_le_iff₀ hscale]
  linarith

/-- The percentage that the income module works with. -/
theorem exists_percent {input : UserInput} {settings : Settings}
    (hcounts : (vacancyShare input settings).Counts ratePlaces lost)
    (hpercentage : valuationNumber input ValuationInputs.vacancyRate = none →
      settings.defaultVacancyRatePercent.isFinite = true ∧
        settings.defaultVacancyRatePercent.value = 100 * settings.defaultVacancyRate.value)
    (hplaces : ratePlaces ≤ 1000026) (hlost : (lost * 100).natAbs < tenTo precision) :
    ∃ rate percent, ModuleData.vacancyPercent input = .ok rate ∧
      rate.amount?.or (Payload.decimal settings.defaultVacancyRatePercent).amount? = some percent ∧
      percent.Counts ratePlaces (lost * 100) := by
  unfold ModuleData.vacancyPercent
  cases hnumber : valuationNumber input ValuationInputs.vacancyRate with
  | some number =>
      -- A rate of the user is multiplied by a hundred; the usual one is set as a percentage too.
      have hshare : vacancyShare input settings = number := by
        rw [vacancyShare, hnumber, Option.getD_some]
      rw [hshare] at hcounts
      obtain ⟨percent, hpercent, hpercentCounts⟩ :=
        hcounts.mul hplaces (Decimal.counts_ofInt 100) hlost
      rw [Nat.add_zero] at hpercentCounts
      refine ⟨.decimal percent, percent, bind_eq_ok.2 ⟨percent, hpercent, rfl⟩, ?_, hpercentCounts⟩
      simp [Payload.amount?, Payload.finiteOnly, hpercentCounts.1]
  | none =>
      have hshare : vacancyShare input settings = settings.defaultVacancyRate := by
        rw [vacancyShare, hnumber, Option.getD_none]
      obtain ⟨hfinite, hvalue⟩ := hpercentage hnumber
      rw [hshare] at hcounts
      refine ⟨.null, settings.defaultVacancyRatePercent, rfl, ?_, hfinite, ?_⟩
      · simp [Payload.amount?, Payload.finiteOnly, hfinite]
      · rw [hvalue, mul_assoc, hcounts.2]
        push_cast
        ring

/-! ## Both sides together -/

/-- The amounts and the rate in units of their last places. -/
structure Known (input : UserInput) (settings : Settings) (places ratePlaces : Nat)
    (count : LineItem → Int) (lost : Int) : Prop where
  amounts : ∀ item ∈ input.revenueItems, item.amount.Counts places (count item)
  /-- The product of all revenue with a share can be held. -/
  moderate : (input.revenueItems.map fun item => (count item).natAbs).sum * 10 ^ ratePlaces <
    tenTo precision
  rate : (vacancyShare input settings).Counts ratePlaces lost
  nonneg : 0 ≤ lost
  le_one : lost ≤ 10 ^ ratePlaces

/-- Numbers of few places are known by whole numbers of units, and the conditions become conditions on these.
-/
theorem Measured.known {input : UserInput} {settings : Settings}
    (h : Measured input settings places ratePlaces) :
    ∃ count lost, Known input settings places ratePlaces count lost := by
  obtain ⟨lost, hlost⟩ := h.rate
  have hscale : (0 : ℚ) < 10 ^ ratePlaces := by positivity
  choose! count hcounts using h.amounts
  refine ⟨count, lost, hcounts, Decimal.sum_natAbs_mul_lt hcounts h.moderate, hlost, ?_, ?_⟩
  · have hlow := mul_le_mul_of_nonneg_right h.nonneg hscale.le
    rw [hlost.2, zero_mul] at hlow
    exact_mod_cast hlow
  · have hhigh := mul_le_mul_of_nonneg_right h.le_one hscale.le
    rw [hlost.2, one_mul] at hhigh
    exact_mod_cast hhigh

section Known

variable {input : UserInput} {settings : Settings} {count : LineItem → Int}

theorem Known.units_lt (h : Known input settings places ratePlaces count lost) :
    (input.revenueItems.map count).sum.natAbs * 10 ^ ratePlaces < tenTo precision :=
  (Nat.mul_le_mul_right _ (Decimal.natAbs_sum_le count _)).trans_lt h.moderate

theorem Known.item_lt (h : Known input settings places ratePlaces count lost) {item : LineItem}
    (hitem : item ∈ input.revenueItems) : (count item).natAbs * 10 ^ ratePlaces < tenTo precision :=
  (Nat.mul_le_mul_right _ (Decimal.natAbs_le_sum count hitem)).trans_lt h.moderate

/-- All revenue is added without rounding. -/
theorem Known.total (h : Known input settings places ratePlaces count lost)
    (hplaces : places ≤ 1000026) :
    ∃ total, Decimal.sum (input.revenueItems.map LineItem.amount) = .ok total ∧
      total.Counts places (input.revenueItems.map count).sum :=
  Decimal.counts_sum hplaces h.amounts
    ((Nat.le_mul_of_pos_right _ (by positivity)).trans_lt h.moderate)

/-- What the evaluation makes of the revenue and the vacancy rate. -/
theorem Known.results (h : Known input settings places ratePlaces count lost)
    (hmeasured : Measured input settings places ratePlaces) {clock : Clock} {id : String}
    {raw : Dictionary (Option Decimal)} {trail : AuditTrail} (hraw : input.rawInputs = .ok raw)
    (htrail : evaluate settings clock id (DirectCap.capitalization settings.defaultVacancyRate)
      (fun name => (raw.get? name).join) = .ok trail) :
    ∃ gross effective, trail.results.get? "grossPotentialIncome" = some (some gross) ∧
      gross.Counts places (input.revenueItems.map count).sum ∧
      trail.results.get? "effectiveGrossIncome" = some (some effective) ∧
      effective.Counts (places + ratePlaces)
        ((input.revenueItems.map count).sum * (10 ^ ratePlaces - lost)) := by
  have hplaces := hmeasured.places_le
  have hratePlaces := hmeasured.ratePlaces_le
  obtain ⟨total, htotal, htotalCounts⟩ := h.total (by omega)
  obtain ⟨found, hfound, hrevenue⟩ := join_get?_totalRevenue hraw hmeasured.revenue
    (hmeasured.unshadowed "totalRevenue" (by simp)).1
  obtain rfl : found = total := Except.ok.inj (hfound.symm.trans htotal)
  have hshare : ((raw.get? "vacancyRate").join).or (some settings.defaultVacancyRate) =
      some (vacancyShare input settings) := by
    rw [join_get?_vacancyRate hraw (hmeasured.unshadowed "vacancyRate" (by simp)).2, vacancyShare]
    cases valuationNumber input ValuationInputs.vacancyRate <;> rfl
  have hconsistent := (DirectCap.reached_capitalization settings.defaultVacancyRate).consistent
  have hsolves := (solved_of_evaluate hconsistent htrail).2
  obtain ⟨gross, effective, hgross, hgrossCounts, heffective, heffectiveCounts⟩ :=
    solution_exact hsolves hrevenue hshare htotalCounts h.rate (by omega) h.nonneg
      h.le_one h.units_lt
  -- The values of the solution are the results of the run.
  have hget := (solves_iff_of_evaluate hconsistent htrail _).1 hsolves
  have hids : "grossPotentialIncome" ∈
        (DirectCap.capitalization settings.defaultVacancyRate).ids ∧
      "effectiveGrossIncome" ∈ (DirectCap.capitalization settings.defaultVacancyRate).ids := by
    refine ⟨List.mem_map.2 ⟨DirectCap.grossPotentialIncome, ?_, rfl⟩,
      List.mem_map.2 ⟨DirectCap.effectiveGrossIncome, ?_, rfl⟩⟩ <;>
      simp [DirectCap.capitalization, DirectCap.formulas]
  refine ⟨gross, effective, ?_, hgrossCounts, ?_, heffectiveCounts⟩
  · rw [hget _ hids.1, hgross]
  · rw [hget _ hids.2, heffective]

/-- What the income module makes of the revenue and the vacancy rate. -/
theorem Known.stream (h : Known input settings places ratePlaces count lost)
    (hmeasured : Measured input settings places ratePlaces) {model : FinancialModel}
    (hmodel : model.userInput = input) :
    ∃ data stream, ModuleData.ofModelWith model settings = .ok data ∧ data.revenueStreams = [stream] ∧
      stream.totals.grossRevenue.Counts places (input.revenueItems.map count).sum ∧
      stream.totals.effectiveRevenue.Counts (places + ratePlaces)
        ((input.revenueItems.map count).sum * (10 ^ ratePlaces - lost)) := by
  subst hmodel
  have hplaces := hmeasured.places_le
  have hratePlaces := hmeasured.ratePlaces_le
  have hlost := h.nonneg
  have hle := h.le_one
  have hprecision : tenTo precision = 10 ^ 28 := rfl
  have hpower : 10 ^ ratePlaces ≤ 10 ^ 20 := Nat.pow_le_pow_right (by decide) hratePlaces
  have hpowerCast : ((10 ^ ratePlaces : Nat) : Int) = 10 ^ ratePlaces := by push_cast; rfl
  obtain ⟨total, htotal, htotalCounts⟩ := h.total (by omega)
  -- The stream is made of the items first, and adjusted for vacancy afterwards.
  obtain ⟨unnamed, hunnamed, hrows⟩ := exists_streamOf (fun item hmem => ⟨h.amounts item hmem,
    (Nat.le_mul_of_pos_right _ (by positivity)).trans_lt (h.item_lt hmem)⟩) htotal
    ModuleData.importedStreamId settings.defaultStreamName .miscellaneous
  obtain ⟨rate, percent, hrate, hpercent, hpercentCounts⟩ :=
    exists_percent h.rate hmeasured.percentage (by omega) (by omega)
  have hsplittable : ∀ row ∈ unnamed.rows, Splittable places ratePlaces row := by
    intro row hrow
    obtain ⟨item, hitem, hincome⟩ := List.mem_map.1 (hrows ▸ List.mem_map_of_mem hrow)
    exact ⟨count item, hincome ▸ h.amounts item hitem, h.item_lt hitem⟩
  have hgross : gross unnamed.rows = .ok total := by rwa [gross, hrows]
  obtain ⟨-, stream, -, hstream, -, rfl, heffective⟩ := exists_adjusted
    { unnamed with category := .miscellaneous } hsplittable hgross htotalCounts h.units_lt
    hpercentCounts (by omega) (by omega) hlost hle
  have hvacancy : { unnamed with category := StreamCategory.miscellaneous }.withVacancy rate
      (.decimal settings.defaultVacancyRatePercent) = .ok stream :=
    withVacancy_eq_ok_iff.2
      ⟨percent, ⟨hpercent, isPercentage_exact hpercentCounts hlost hle⟩, hstream⟩
  exact ⟨_, stream, bind_eq_ok.2 ⟨unnamed, ofDecimal_eq_ok.2 hunnamed, bind_eq_ok.2
    ⟨.miscellaneous, rfl, bind_eq_ok.2 ⟨rate, ofDecimal_eq_ok.2 hrate, bind_eq_ok.2
      ⟨stream, hvacancy, rfl⟩⟩⟩⟩, rfl, htotalCounts, heffective⟩

end Known

/-- The evaluation of a model and the data for the income module agree on the gross and on the effective
income, when the revenue and the vacancy rate have so few places that nothing has to be rounded. -/
theorem effectiveIncome_agrees {clock : FinancialModel.Clock} {title : String} {input : UserInput} {options : ModelOptions}
    {settings : Settings} {supply rest : IdSupply} {model : FinancialModel}
    (hmeasured : Measured input settings places ratePlaces)
    (hrun : FinancialModel.assemble clock title input none options settings supply =
      .ok (model, rest)) :
    ∃ data stream gross effective, ModuleData.ofModelWith model settings = .ok data ∧
      data.revenueStreams = [stream] ∧
      model.calculations.results.get? "grossPotentialIncome" = some (some gross) ∧
      model.calculations.results.get? "effectiveGrossIncome" = some (some effective) ∧
      stream.totals.grossRevenue.compare? gross = some .eq ∧
      stream.totals.effectiveRevenue.compare? effective = some .eq := by
  obtain ⟨id, raw, _, trail, -, -, hraw, htrail, hassembled⟩ := FinancialModel.assemble_eq_ok hrun
  have hmodel : model.userInput = input := congrArg FinancialModel.userInput hassembled
  have hcalculations : model.calculations = trail :=
    congrArg FinancialModel.calculations hassembled
  rw [← hcalculations] at htrail
  -- Both sides count the same units, so they are equal whatever digits they are written with.
  obtain ⟨count, lost, hknown⟩ := hmeasured.known
  obtain ⟨gross, effective, hgross, hgrossCounts, heffective, heffectiveCounts⟩ :=
    hknown.results hmeasured hraw htrail
  obtain ⟨data, stream, hdata, hstream, hstreamGross, hstreamEffective⟩ :=
    hknown.stream hmeasured hmodel
  refine ⟨data, stream, gross, effective, hdata, hstream, hgross, heffective, ?_, ?_⟩
  · exact hstreamGross.compare?_eq hgrossCounts
  · exact hstreamEffective.compare?_eq heffectiveCounts

/-- A line of revenue of a user. -/
def rentLine (id : String) (amount : Decimal) : LineItem :=
  { id, label := id, amount, source := UserInput.enteredUnder id
    category := none, notes := none, flaggedForReview := false }

/-- Two lines of revenue with a vacancy of five percent. -/
def letOffice : UserInput :=
  { revenueItems := [rentLine "rent" (.finite false 10000050 (-2)), rentLine "parking" (.ofInt 12000)]
    expenseItems := []
    adjustmentItems := []
    propertyInfo := none
    valuationInputs := some
      { capRate := none
        askingPrice := none
        vacancyRate := some { value := .text "0.05", source := UserInput.enteredUnder "vacancyRate" }
        extensions := [] } }

/-- Two lines with two places and a rate of five percent are well within the conditions. -/
theorem measured_letOffice : Measured letOffice .usual 2 2 := by
  have hshare : vacancyShare letOffice .usual = .finite false 5 (-2) := by decide +kernel
  have hnumber : valuationNumber letOffice ValuationInputs.vacancyRate =
      some (.finite false 5 (-2)) := by decide +kernel
  have hvalue : (Decimal.finite false 5 (-2)).value = 5 / 100 := by
    norm_num [Decimal.value, Decimal.signed]
  have hrent : (Decimal.finite false 10000050 (-2)).value = 10000050 / 100 := by
    norm_num [Decimal.value, Decimal.signed]
  refine ⟨by decide, by decide, fun hnone => ?_, ?_, ?_, ⟨5, ?_⟩, ?_, by decide, by decide, ?_⟩
  · rw [hnumber] at hnone
    cases hnone
  · rw [hshare, hvalue]
    norm_num
  · rw [hshare, hvalue]
    norm_num
  · rw [hshare]
    exact ⟨rfl, by rw [hvalue]; norm_num⟩
  · simp only [letOffice, List.forall_mem_cons]
    exact ⟨⟨10000050, rfl, by rw [rentLine, hrent]; norm_num⟩,
      ⟨1200000, rfl, by rw [rentLine, Decimal.value_ofInt]; norm_num⟩, by simp⟩
  · simp only [letOffice, rentLine, List.map_cons, List.map_nil, List.sum_cons, List.sum_nil, hrent,
      Decimal.value_ofInt]
    norm_num

/-- The two ways meet on the office: 112000.50 before vacancy and 106400.475 after it. -/
theorem effectiveIncome_agrees_letOffice :
    ∃ model rest data stream gross effective,
      FinancialModel.assemble "2024-01-02T03:04:05" "Office" letOffice none .usual .usual .fresh =
        .ok (model, rest) ∧
      ModuleData.ofModelWith model .usual = .ok data ∧ data.revenueStreams = [stream] ∧
      model.calculations.results.get? "grossPotentialIncome" = some (some gross) ∧
      model.calculations.results.get? "effectiveGrossIncome" = some (some effective) ∧
      stream.totals.grossRevenue.compare? gross = some .eq ∧
      stream.totals.effectiveRevenue.compare? effective = some .eq := by
  have hassembled : (FinancialModel.assemble "2024-01-02T03:04:05" "Office" letOffice
      (some (DirectCap.capitalization Settings.usual.defaultVacancyRate)) .usual .usual
      .fresh).toOption.isSome := by decide +kernel
  obtain ⟨⟨model, rest⟩, hrun⟩ := Option.isSome_iff_exists.1 hassembled
  rw [toOption_eq_some, FinancialModel.assemble_capitalization] at hrun
  obtain ⟨data, stream, gross, effective, hagrees⟩ :=
    effectiveIncome_agrees measured_letOffice hrun
  exact ⟨model, rest, data, stream, gross, effective, hrun, hagrees⟩

end Income
end Appraisal
