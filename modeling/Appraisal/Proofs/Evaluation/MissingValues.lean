import Appraisal.Proofs.Decimal.Value
import Appraisal.Proofs.Evaluation.Requirements

/-!
# Which values are missing

Where the denominators of a formula are checked to be positive, nothing but a lacking operand keeps it from
having a value.  So it can be read off the definitions which values of a run are missing.  For direct
capitalization this is said in full: which entries of the user, and which signs, each value depends on.
-/

namespace Appraisal

/-! ## Operands that lack their number -/

/-- There is a number, and it is at most zero. -/
def AtMostZero (found : Option Decimal) : Prop :=
  ∃ number, found = some number ∧ number.value ≤ 0

theorem Decimal.isZero?_of_pos {x : Decimal} (hfinite : x.isFinite = true) (h : 0 < x.value) :
    x.isZero? = .ok false := by
  obtain ⟨s, c, e, rfl⟩ := exists_finite hfinite
  have hc : c ≠ 0 := by
    rintro rfl
    simp [value_finite, magnitude] at h
  exact congrArg Except.ok (decide_eq_false hc)

namespace Operand

variable {operand : Operand} {inputs : Inputs} {number : Decimal}

/-- To lack a number is to be resolved to none. -/
theorem lacks_iff_resolve : operand.Lacks inputs ↔ operand.resolve inputs = .ok none := by
  refine ⟨Lacks.resolve, fun h => ?_⟩
  cases shows_of_resolve h with
  | missing hmissing => exact .missing hmissing
  | dropped hnumber hrequired hsmall => exact .notPositive hnumber hrequired hsmall

/-- For finite numbers, the check for a positive one is a comparison of values. -/
theorem lacks_iff (hfinite : Operation.FiniteIfAny (Formula.found inputs operand)) :
    operand.Lacks inputs ↔ Formula.found inputs operand = none ∨
      operand.positive = true ∧ AtMostZero (Formula.found inputs operand) := by
  have hcompare : ∀ {number : Decimal}, Formula.found inputs operand = some number →
      (number.le? .zero = .ok true ↔ number.value ≤ 0) := fun hnumber => by
    rw [Decimal.le?_eq_ok (hfinite _ hnumber) rfl, Decimal.value_zero]
    simp
  constructor
  · rintro (hmissing | ⟨hnumber, hrequired, hsmall⟩)
    · exact .inl hmissing
    · exact .inr ⟨hrequired, _, hnumber, (hcompare hnumber).1 hsmall⟩
  · rintro (hmissing | ⟨hrequired, number, hnumber, hsmall⟩)
    · exact .missing hmissing
    · exact .notPositive hnumber hrequired ((hcompare hnumber).2 hsmall)

/-- A number that passes the check is positive. -/
theorem pos_of_resolve (hfinite : number.isFinite = true) (hrequired : operand.positive = true)
    (h : operand.resolve inputs = .ok (some number)) : 0 < number.value := by
  cases shows_of_resolve h with
  | taken hnumber hpositive =>
      have hlarge := hpositive hrequired
      rw [Decimal.le?_eq_ok hfinite rfl, Decimal.value_zero] at hlarge
      simpa using hlarge

end Operand

/-! ## Formulas whose denominators are checked -/

namespace Formula

variable {formula : Formula} {inputs : Inputs} {functions : Dictionary CustomFunction}
  {resolved : Resolved} {weights : List Decimal} {result : Decimal} {value : Option Decimal}

/-- Nothing but a lacking operand can keep the formula from having a value: it is an operation on operands
with keys of their own, its constants are finite, and its denominators have to be positive. -/
structure Guarded (formula : Formula) : Prop where
  operation : formula.operation ≠ .custom
  operands : formula.operands ≠ []
  keys : (formula.operands.map Operand.key).Nodup
  constants : formula.FiniteConstants
  /-- A denominator is positive, and no coefficient makes it smaller. -/
  denominators : formula.operation = .divide → ∀ operand ∈ formula.operands.tail,
    operand.positive = true ∧ operand.coefficient = none

/-- Denominators of a guarded formula are positive numbers without coefficients, so none of them is zero. -/
theorem Guarded.denominator_nonzero (h : formula.Guarded)
    (hinputs : inputs.All fun number => number.isFinite = true)
    (hresolved : formula.resolve inputs = .ok resolved) (hdivide : formula.operation = .divide)
    (hweights : Weighs formula.operands (formula.operands.map (resolvedValue resolved)) weights) :
    ∀ denominator ∈ weights.tail, denominator.isZero? = .ok false := by
  rw [weighs_iff_forall₂] at hweights
  intro denominator hmem
  have htail : List.Forall₂ (fun operand weight =>
      ∃ number, resolvedValue resolved operand = some number ∧ operand.weighted number = .ok weight)
        formula.operands.tail weights.tail := by
    simpa only [List.drop_one] using List.forall₂_drop 1 hweights
  obtain ⟨operand, hbehind, number, hnumber, hweighted⟩ := exists_of_mem_right htail hmem
  -- The denominator is a number found and not weighted, and only positive ones are found.
  obtain ⟨hpositive, hunweighted⟩ := h.denominators hdivide operand hbehind
  have hfinite := h.constants.defaults.found hinputs hresolved hnumber
  have hresolve := resolve_operand h.keys hresolved operand (List.mem_of_mem_tail hbehind)
  rw [hnumber] at hresolve
  unfold Operand.weighted at hweighted
  rw [hunweighted] at hweighted
  obtain rfl := Except.ok.inj hweighted
  exact Decimal.isZero?_of_pos hfinite (Operand.pos_of_resolve hfinite hpositive hresolve)

/-- An operation on finite weights yields a finite number. -/
theorem FiniteConstants.isFinite_computed (h : formula.FiniteConstants)
    (hinputs : inputs.All fun number => number.isFinite = true)
    (hresolved : formula.resolve inputs = .ok resolved)
    (hweights : Weighs formula.operands (formula.operands.map (resolvedValue resolved)) weights)
    (hresult : formula.operation.Computes weights result) : result.isFinite = true := by
  have hfinite := (overflowOr_weightedOperands
    (fun operand _ number hnumber => h.defaults.found hinputs hresolved hnumber)
    h.coefficients).of_ok (weightedOperands_eq_some_iff.2 hweights) weights rfl
  exact (formula.operation.overflowOr_apply hfinite).of_ok
    (Operation.apply_eq_some_iff.2 hresult) result rfl

/-- Without a scale the value of a custom formula is the amount in the answer of its function. -/
theorem answer_of_compute {function : CustomFunction} (hoperation : formula.operation = .custom)
    (hscale : formula.scale = none)
    (hfunction : functions.get? formula.functionName = some function)
    (hresolved : formula.resolve inputs = .ok resolved)
    (h : formula.compute inputs functions = .ok value) :
    ∃ answer, function resolved = .ok answer ∧ value = answer.amount? := by
  have hraw : formula.rawResult resolved functions =
      (do return (← function resolved).amount?) := by
    unfold rawResult
    rw [if_pos hoperation, hfunction]
  -- Without a scale the answer is passed on, and an amount is finite already.
  rcases (compute_eq_ok_iff hresolved).1 h with ⟨hnone, rfl⟩ | ⟨result, outcome, hresult, houtcome, hvalue⟩
  · obtain ⟨answer, hanswer, hamount⟩ := bind_eq_ok.1 (hraw.symm.trans hnone)
    exact ⟨answer, hanswer, (pure_eq_ok.1 hamount).symm⟩
  · obtain ⟨answer, hanswer, hamount⟩ := bind_eq_ok.1 (hraw.symm.trans hresult)
    rw [pure_eq_ok] at hamount
    unfold timesScale at houtcome
    rw [hscale] at houtcome
    obtain rfl := Except.ok.inj houtcome
    refine ⟨answer, hanswer, ?_⟩
    rw [← hvalue, hamount, Payload.finiteOnly, if_pos (Payload.isFinite_of_amount? hamount)]

/-- A formula with checked denominators that is computed on finite inputs has no value exactly if an operand
lacks its number. -/
theorem Guarded.compute_eq_none_iff (h : formula.Guarded)
    (hinputs : inputs.All fun number => number.isFinite = true)
    (hvalue : formula.compute inputs functions = .ok value) :
    value = none ↔ ∃ operand ∈ formula.operands, operand.Lacks inputs := by
  constructor
  · rintro rfl
    obtain ⟨resolved, hresolved, -⟩ := bind_eq_ok.1 hvalue
    rw [ofDecimal_eq_ok] at hresolved
    -- The explanations of a missing value, of which the side conditions leave one.
    cases yields_of_compute h.operation hresolved hvalue with
    | unsupplied hoperands => exact absurd hoperands h.operands
    | missing hmissing =>
        obtain ⟨operand, hmem, hnone⟩ := List.mem_map.1 hmissing
        refine ⟨operand, hmem, Operand.lacks_iff_resolve.2 ?_⟩
        rw [resolve_operand h.keys hresolved operand hmem, hnone]
    | undivided hweights hdivide hzero =>
        obtain ⟨denominator, hmem, hzero⟩ := hzero
        cases (h.denominator_nonzero hinputs hresolved hdivide hweights denominator hmem).symm.trans
          hzero
    | infinite hweights hresult houtcome hinfinite =>
        have hfinite := h.constants.isFinite_computed hinputs hresolved hweights hresult
        cases hinfinite.symm.trans
          ((h.constants.finiteOrOverflow_timesScale hfinite).of_ok houtcome)
  · rintro ⟨operand, hmem, hlacks⟩
    have hnone : formula.compute inputs functions = .ok none :=
      (compute_of_lacks h.operation (decides_of_nodup h.keys hmem) hlacks).2
        (h.constants.comparable hinputs)
    exact Except.ok.inj (hvalue.symm.trans hnone)

end Formula

/-! ## Runs in which every computation succeeds -/

namespace Evaluation

variable {settings : Settings} {clock : Clock} {modelId : String} {registry : Registry} {raw : Inputs}
  {values : String → Option Decimal} {trail : AuditTrail} {formula : Formula}

/-- Every formula of the registry computes the value that is assigned to it. -/
def Computed (registry : Registry) (raw : Inputs) (values : String → Option Decimal) : Prop :=
  ∀ formula ∈ registry.formulas,
    formula.compute (overlaid raw values formula.dependencies) registry.functions =
      .ok (values formula.id)

/-- A run without failed computations computes every value by its definition. -/
theorem computed_of_evaluate (hregistry : registry.Consistent)
    (h : evaluate settings clock modelId registry raw = .ok trail)
    (hcomputed : ∀ result ∈ trail.calculations, ∀ cause,
      result.error ≠ some ("Computation failed" ++ cause)) :
    Computed registry raw (valuesOf trail.results) := by
  intro formula hmem
  obtain ⟨result, hget, hresult⟩ := get?_of_evaluate hregistry h hmem
  have hrecord : result ∈ trail.calculations := List.mem_of_find?_eq_some hget
  rw [compute_of_evaluateFormula hresult (hcomputed result hrecord),
    ← valuesOf_formulaId hregistry h hrecord, formulaId_of_evaluateFormula hresult]

/-- The inputs of a formula are finite: numbers that have been computed are, and so are the raw ones. -/
theorem Computed.finite (hregistry : registry.Consistent) (h : Computed registry raw values)
    (hraw : raw.All fun number => number.isFinite = true) (hmem : formula ∈ registry.formulas) :
    (overlaid raw values formula.dependencies).All fun number => number.isFinite = true := by
  intro name number hnumber
  unfold overlaid at hnumber
  split at hnumber
  · next hdependency =>
      obtain ⟨other, hother, rfl⟩ := List.mem_map.1 (hregistry.closed formula hmem hdependency)
      exact Formula.isFinite_of_compute ((h other hother).trans (congrArg _ hnumber))
  · exact hraw name number hnumber

/-- In a run in which every computation succeeds, a formula with checked denominators has no value exactly if
an operand is not given, or is at most zero and should be positive. -/
theorem Computed.eq_none_iff (hregistry : registry.Consistent) (h : Computed registry raw values)
    (hraw : raw.All fun number => number.isFinite = true) (hmem : formula ∈ registry.formulas)
    (hguarded : formula.Guarded) :
    values formula.id = none ↔ ∃ operand ∈ formula.operands,
      Formula.found (overlaid raw values formula.dependencies) operand = none ∨
        operand.positive = true ∧
          AtMostZero (Formula.found (overlaid raw values formula.dependencies) operand) := by
  have hinputs := h.finite hregistry hraw hmem
  rw [hguarded.compute_eq_none_iff hinputs (h formula hmem)]
  refine exists_congr fun operand => and_congr_right fun hoperand => Operand.lacks_iff ?_
  exact fun number hnumber => hguarded.constants.defaults.either hinputs hoperand hnumber

end Evaluation

/-! ## Direct capitalization -/

namespace DirectCap

open Evaluation

variable {rate : Decimal} {formula : Formula} {inputs raw : Inputs}
  {values : String → Option Decimal} {functions : Dictionary CustomFunction} {value : Option Decimal}

/-- All formulas but the custom one check what they divide by. -/
theorem guarded_of_mem_formulas (hrate : rate.isFinite = true) (hmem : formula ∈ formulas rate)
    (hoperation : formula.operation ≠ .custom) : formula.Guarded := by
  have hzero : Decimal.zero.isFinite = true := rfl
  simp only [formulas, List.mem_cons, List.not_mem_nil, or_false] at hmem
  rcases hmem with rfl | rfl | rfl | rfl | rfl | rfl | rfl | rfl | rfl | rfl | rfl | rfl | rfl
  all_goals
    refine ⟨hoperation, ?_, ?_, ⟨?_, ?_, ?_⟩, ?_⟩ <;>
      simp_all [Formula.AllDefaults, grossPotentialIncome, vacancyAllowance, effectiveGrossIncome,
        totalOperatingExpenses, expenseRatio, netOperatingIncome, noiMargin, expensePerSqFt, noiPerSqFt,
        propertyValue, pricePerSqFt, grossRentMultiplier, impliedCapRateFormula, squareFootage,
        DirectCap.result, entry, hundred]

/-- The function has no answer exactly if a number is missing or the price is not positive. -/
theorem amount?_of_impliedCapRate {resolved : Resolved} {answer : Payload} {income price : Option Decimal}
    (hincome : (resolved.get? "netOperatingIncome").join = income)
    (hprice : (resolved.get? "askingPrice").join = price)
    (hincomeFinite : Operation.FiniteIfAny income) (hpriceFinite : Operation.FiniteIfAny price)
    (h : impliedCapRate resolved = .ok answer) :
    answer.amount? = none ↔ income = none ∨ price = none ∨ AtMostZero price := by
  unfold impliedCapRate at h
  rw [hincome, hprice] at h
  cases income with
  | none =>
      obtain rfl := Except.ok.inj h
      simp [Payload.amount?]
  | some income =>
      cases price with
      | none =>
          obtain rfl := Except.ok.inj h
          simp [Payload.amount?]
      | some price =>
          have hx := hincomeFinite income rfl
          have hy := hpriceFinite price rfl
          have hsmall : AtMostZero (some price) ↔ price.value ≤ 0 := by simp [AtMostZero]
          obtain ⟨isSmall, hcompare, h⟩ := bind_eq_ok.1 (ofDecimal_eq_ok.1 h)
          rw [Decimal.le?_eq_ok hy rfl, Decimal.value_zero] at hcompare
          obtain rfl := Except.ok.inj hcompare
          -- A price that is not positive is answered with nothing, any other one is divided by.
          by_cases hvalue : price.value ≤ 0
          · rw [decide_eq_true hvalue] at h
            obtain rfl := pure_eq_ok.1 h
            simp [Payload.amount?, hsmall, hvalue]
          · rw [decide_eq_false hvalue] at h
            obtain ⟨quotient, hquotient, h⟩ := bind_eq_ok.1 h
            obtain rfl := pure_eq_ok.1 h
            have hnonzero := Decimal.isZero?_of_pos hy (not_le.1 hvalue)
            have hfinite := (Decimal.finiteOrOverflow_div hx hy hnonzero).of_ok hquotient
            simp [Payload.amount?, Payload.finiteOnly, hfinite, hsmall, hvalue]

/-- The implied capitalization rate, too, is missing only where an operand is missing or the price is not
positive. -/
theorem compute_impliedCapRate (hinputs : inputs.All fun number => number.isFinite = true)
    (hfunction : functions.get? impliedCapRateName = some impliedCapRate)
    (hvalue : impliedCapRateFormula.compute inputs functions = .ok value) :
    value = none ↔ inputs "netOperatingIncome" = none ∨ inputs "askingPrice" = none ∨
      AtMostZero (inputs "askingPrice") := by
  have hresolved : impliedCapRateFormula.resolve inputs =
      .ok [("netOperatingIncome", inputs "netOperatingIncome"),
        ("askingPrice", inputs "askingPrice")] := by
    have hplain : ∀ operand ∈ impliedCapRateFormula.operands, operand.Plain := by
      simp only [impliedCapRateFormula, List.forall_mem_cons]
      exact ⟨⟨rfl, rfl⟩, ⟨rfl, rfl⟩, by simp⟩
    rw [Formula.resolve_of_taken (fun operand hmem => (hplain operand hmem).taken inputs) (by decide)]
    simp [impliedCapRateFormula, Formula.found, DirectCap.result, entry]
  obtain ⟨answer, hanswer, rfl⟩ := Formula.answer_of_compute rfl rfl hfunction hresolved hvalue
  exact amount?_of_impliedCapRate rfl rfl (hinputs _) (hinputs _) hanswer

/-- Which values of direct capitalization are missing: some because an entry of the user is, the others
because another value is missing or because a number that is divided by is missing or not positive. -/
structure NullStructure (raw : Inputs) (values : String → Option Decimal) : Prop where
  grossPotentialIncome : values "grossPotentialIncome" = none ↔ raw "totalRevenue" = none
  vacancyAllowance : values "vacancyAllowance" = none ↔ raw "totalRevenue" = none
  effectiveGrossIncome : values "effectiveGrossIncome" = none ↔ raw "totalRevenue" = none
  netOperatingIncome : values "netOperatingIncome" = none ↔ raw "totalRevenue" = none
  totalOperatingExpenses : values "totalOperatingExpenses" = none ↔ raw "totalExpenses" = none
  expenseRatio : values "expenseRatio" = none ↔
    values "totalOperatingExpenses" = none ∨ values "effectiveGrossIncome" = none ∨
      AtMostZero (values "effectiveGrossIncome")
  noiMargin : values "noiMargin" = none ↔
    values "effectiveGrossIncome" = none ∨ AtMostZero (values "effectiveGrossIncome")
  expensePerSqFt : values "expensePerSqFt" = none ↔
    values "totalOperatingExpenses" = none ∨ raw "squareFootage" = none ∨
      AtMostZero (raw "squareFootage")
  noiPerSqFt : values "noiPerSqFt" = none ↔
    values "netOperatingIncome" = none ∨ raw "squareFootage" = none ∨
      AtMostZero (raw "squareFootage")
  pricePerSqFt : values "pricePerSqFt" = none ↔
    values "propertyValue" = none ∨ raw "squareFootage" = none ∨ AtMostZero (raw "squareFootage")
  propertyValue : values "propertyValue" = none ↔
    values "netOperatingIncome" = none ∨ raw "capRate" = none ∨ AtMostZero (raw "capRate")
  grossRentMultiplier : values "grossRentMultiplier" = none ↔
    values "propertyValue" = none ∨ AtMostZero (values "grossPotentialIncome")
  impliedCapRate : values "impliedCapRate" = none ↔
    values "netOperatingIncome" = none ∨ raw "askingPrice" = none ∨ AtMostZero (raw "askingPrice")

/-- A value is missing exactly if that of an operand is, or is at most zero and should be positive. -/
theorem eq_none_iff_of_computed (hrate : rate.isFinite = true)
    (hraw : raw.All fun number => number.isFinite = true)
    (h : Computed (capitalization rate) raw values) (formula : Formula)
    (hmem : formula ∈ formulas rate) (hoperation : formula.operation ≠ .custom) :
    values formula.id = none ↔ ∃ operand ∈ formula.operands,
      Formula.found (overlaid raw values formula.dependencies) operand = none ∨
        operand.positive = true ∧
          AtMostZero (Formula.found (overlaid raw values formula.dependencies) operand) :=
  h.eq_none_iff (reached_capitalization rate).consistent hraw hmem
    (guarded_of_mem_formulas hrate hmem hoperation)

/-- Each of the thirteen conditions is read off the operands of its formula. -/
theorem nullStructure_of_computed (hrate : rate.isFinite = true)
    (hraw : raw.All fun number => number.isFinite = true)
    (h : Computed (capitalization rate) raw values) : NullStructure raw values := by
  have hnone := eq_none_iff_of_computed hrate hraw h
  -- For each formula, the operands that may lack a number are the dependencies and entries it names;
  -- defaults rule out the others.
  have hgross : values "grossPotentialIncome" = none ↔ raw "totalRevenue" = none := by
    refine (hnone grossPotentialIncome (by simp [formulas]) (by decide)).trans ?_
    simp [grossPotentialIncome, Formula.found, overlaid, entry]
  have hvacancy : values "vacancyAllowance" = none ↔ values "grossPotentialIncome" = none := by
    refine (hnone (vacancyAllowance rate) (by simp [formulas]) (by simp [vacancyAllowance])).trans ?_
    simp [vacancyAllowance, Formula.found, overlaid, DirectCap.result, entry]
  have heffective : values "effectiveGrossIncome" = none ↔ values "grossPotentialIncome" = none := by
    refine (hnone effectiveGrossIncome (by simp [formulas]) (by decide)).trans ?_
    simp [effectiveGrossIncome, Formula.found, overlaid, DirectCap.result, entry]
  have hincome : values "netOperatingIncome" = none ↔ values "effectiveGrossIncome" = none := by
    refine (hnone netOperatingIncome (by simp [formulas]) (by decide)).trans ?_
    simp [netOperatingIncome, Formula.found, overlaid, DirectCap.result, entry]
  have hmargin : values "noiMargin" = none ↔ values "netOperatingIncome" = none ∨
      values "effectiveGrossIncome" = none ∨ AtMostZero (values "effectiveGrossIncome") := by
    refine (hnone noiMargin (by simp [formulas]) (by decide)).trans ?_
    simp [noiMargin, Formula.found, overlaid, DirectCap.result, entry]
  have hproperty : values "propertyValue" = none ↔ values "netOperatingIncome" = none ∨
      raw "capRate" = none ∨ AtMostZero (raw "capRate") := by
    refine (hnone propertyValue (by simp [formulas]) (by decide)).trans ?_
    simp [propertyValue, Formula.found, overlaid, DirectCap.result, entry]
  have hmultiplier : values "grossRentMultiplier" = none ↔ values "propertyValue" = none ∨
      values "grossPotentialIncome" = none ∨ AtMostZero (values "grossPotentialIncome") := by
    refine (hnone grossRentMultiplier (by simp [formulas]) (by decide)).trans ?_
    simp [grossRentMultiplier, Formula.found, overlaid, DirectCap.result, entry]
  constructor
  case grossPotentialIncome => exact hgross
  case vacancyAllowance => exact hvacancy.trans hgross
  case effectiveGrossIncome => exact heffective.trans hgross
  case netOperatingIncome => exact hincome.trans (heffective.trans hgross)
  case totalOperatingExpenses =>
    refine (hnone totalOperatingExpenses (by simp [formulas]) (by decide)).trans ?_
    simp [totalOperatingExpenses, Formula.found, overlaid, entry]
  case expenseRatio =>
    refine (hnone expenseRatio (by simp [formulas]) (by decide)).trans ?_
    simp [expenseRatio, Formula.found, overlaid, DirectCap.result, entry]
  case noiMargin => rw [hmargin, hincome, ← or_assoc, or_self]
  case expensePerSqFt =>
    refine (hnone expensePerSqFt (by simp [formulas]) (by decide)).trans ?_
    simp [expensePerSqFt, squareFootage, Formula.found, overlaid, DirectCap.result, entry]
  case noiPerSqFt =>
    refine (hnone noiPerSqFt (by simp [formulas]) (by decide)).trans ?_
    simp [noiPerSqFt, squareFootage, Formula.found, overlaid, DirectCap.result, entry]
  case pricePerSqFt =>
    refine (hnone pricePerSqFt (by simp [formulas]) (by decide)).trans ?_
    simp [pricePerSqFt, squareFootage, Formula.found, overlaid, DirectCap.result, entry]
  case propertyValue => exact hproperty
  case grossRentMultiplier =>
    -- A property value needs an income, so it is missing wherever the gross income is.
    have hneeds : values "grossPotentialIncome" = none → values "propertyValue" = none := fun hmissing =>
      hproperty.2 (.inl (hincome.2 (heffective.2 hmissing)))
    rw [hmultiplier, ← or_assoc, or_iff_left_of_imp hneeds]
  case impliedCapRate =>
    have hmem : impliedCapRateFormula ∈ (capitalization rate).formulas := by
      simp [capitalization, formulas]
    have hinputs := h.finite (reached_capitalization rate).consistent hraw hmem
    refine (compute_impliedCapRate hinputs rfl (h impliedCapRateFormula hmem)).trans ?_
    simp [impliedCapRateFormula, overlaid]

/-- A run of direct capitalization in which every computation succeeds leaves exactly those values out that
the null structure names, whatever the entries are called and whatever vacancy rate stands in. -/
theorem nullStructure_of_run {rate : Decimal} (hrate : rate.isFinite = true) {registry : Registry}
    (hregistry : DirectCap.registry rate = .ok registry) {settings : Settings} {clock : Clock} {modelId : String}
    {entries : Dictionary Payload} {trail : AuditTrail}
    (h : evaluate settings clock modelId registry (rawInputs entries) = .ok trail)
    (hcomputed : ∀ result ∈ trail.calculations, ∀ cause,
      result.error ≠ some ("Computation failed" ++ cause)) :
    ∃ values : String → Option Decimal,
      (∀ formula ∈ formulas rate, trail.results.get? formula.id = some (values formula.id)) ∧
        (∀ result ∈ trail.calculations, result.value = values result.formulaId) ∧
          NullStructure (rawInputs entries) values := by
  obtain rfl := Except.ok.inj (hregistry.symm.trans (registry_eq rate))
  have hconsistent := (reached_capitalization rate).consistent
  have hkeys := keys_perm_of_evaluate hconsistent h
  refine ⟨valuesOf trail.results, fun formula hmem => ?_, fun result hmem => ?_, ?_⟩
  · exact get?_eq_some_valuesOf (hkeys.mem_iff.2 (List.mem_map_of_mem hmem))
  · exact (valuesOf_formulaId hconsistent h hmem).symm
  · exact nullStructure_of_computed hrate (isFinite_rawInputs entries)
      (computed_of_evaluate hconsistent h hcomputed)

/-- Entries of a user who knows the expenses only under the name of their total, and a negative area. -/
def misfiled : Dictionary Payload :=
  [("totalRevenue", .int 1000), ("totalOperatingExpenses", .int 400), ("capRate", .text "0.1"),
    ("squareFootage", .int (-5))]

/-- The total of the expenses is missing although there is an entry of that name, so the income is that
before expenses; there is a property value, but none per square foot. -/
theorem nullStructure_of_run_misfiled :
    ∃ registry trail values,
      DirectCap.registry defaultVacancyRate = .ok registry ∧
      evaluate .usual "monday" "a" registry (rawInputs misfiled) = .ok trail ∧
      (∀ result ∈ trail.calculations, result.error = none) ∧
      NullStructure (rawInputs misfiled) values ∧
      values "totalOperatingExpenses" = none ∧ values "netOperatingIncome" ≠ none ∧
      values "propertyValue" ≠ none ∧ values "pricePerSqFt" = none := by
  have hrun : ((evaluate .usual "monday" "a" (capitalization defaultVacancyRate)
      (rawInputs misfiled)).toOption.map fun trail => trail.calculations.map CalculationResult.error) =
        some (List.replicate 13 none) := by decide +kernel
  obtain ⟨trail, htrail, herrors⟩ := Option.map_eq_some_iff.1 hrun
  rw [toOption_eq_some] at htrail
  have hvalid : ∀ result ∈ trail.calculations, result.error = none := fun result hmem =>
    List.eq_of_mem_replicate (herrors ▸ List.mem_map_of_mem hmem)
  obtain ⟨values, -, -, hnull⟩ := nullStructure_of_run rfl (registry_eq _) htrail
    fun result hmem cause => by simp [hvalid result hmem]
  have hrevenue : rawInputs misfiled "totalRevenue" ≠ none := by decide +kernel
  have hcapRate : rawInputs misfiled "capRate" = some (.finite false 1 (-1)) := by decide +kernel
  have harea : rawInputs misfiled "squareFootage" = some (.ofInt (-5)) := by decide +kernel
  have hincome : values "netOperatingIncome" ≠ none := mt hnull.netOperatingIncome.1 hrevenue
  have hproperty : values "propertyValue" ≠ none := by
    rw [Ne, hnull.propertyValue, hcapRate]
    simp [hincome, AtMostZero, Decimal.value_finite, Decimal.magnitude]
  -- The area is negative, so it does not count as one, while the income does not depend on it.
  refine ⟨_, trail, values, registry_eq _, htrail, hvalid, hnull, ?_, hincome, hproperty, ?_⟩
  · exact hnull.totalOperatingExpenses.2 (by decide +kernel)
  · exact hnull.pricePerSqFt.2 (.inr (.inr ⟨_, harea, by simp⟩))

end DirectCap
end Appraisal
