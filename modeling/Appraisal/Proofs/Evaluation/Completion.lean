import Appraisal.Proofs.Evaluation.Closure

/-!
# When a run returns

A run returns a trail exactly when all its numbers can be written down and compared.  It always does
when the constants of the formulas, the raw inputs and the answers of the functions lie in the range of
results, because everything that is computed from them does.  In a trail that is returned, a failure and a
missing value leave their mark on the record of their formula.
-/

namespace Appraisal

/-! ## Moderate numbers -/

open Evaluation (Showable)

/-- The constants of a formula lie in the range. -/
structure Formula.Moderate (formula : Formula) : Prop where
  named : formula.id ≠ ""
  defaults : ∀ operand ∈ formula.operands, ∀ number, operand.fallback = some number →
    number.Writable ∧ number.Ordered
  coefficients : ∀ operand ∈ formula.operands, Showable operand.coefficient
  scale : Showable formula.scale
  rules : ∀ rule ∈ formula.rules, rule.Ordered

/-- The answers of all functions lie in the range. -/
def AllModerate (functions : Dictionary CustomFunction) : Prop :=
  ∀ name function, functions.get? name = some function →
    ∀ resolved answer, function resolved = .ok answer → Showable answer.amount?

/-- The constants of all formulas and the answers of all functions lie in the range. -/
structure Registry.Moderate (registry : Registry) : Prop where
  formulas : ∀ formula ∈ registry.formulas, formula.Moderate
  answers : AllModerate registry.functions

/-- The inputs lie in the range. -/
def Inputs.Moderate (inputs : Inputs) : Prop :=
  ∀ name number, inputs name = some number → number.Writable ∧ number.Ordered

theorem Rule.checkable_of_ordered {rules : List Rule} (h : ∀ rule ∈ rules, rule.Ordered)
    (number : Decimal) : Checkable number rules := by
  induction rules with
  | nil => trivial
  | cons rule rest ih =>
      rw [List.forall_mem_cons] at h
      exact ⟨h.1, fun _ => ih h.2⟩

theorem Formula.Moderate.found {formula : Formula} (h : formula.Moderate) {inputs : Inputs}
    (hinputs : inputs.Moderate) {resolved : Resolved}
    (hresolved : formula.resolve inputs = .ok resolved) (key : String) :
    Showable (resolved.get? key).join :=
  fun _ hnumber => (AllDefaults.found h.defaults hinputs hresolved hnumber).1

/-- From moderate inputs a moderate formula computes a moderate number, so that no step towards overflow of
the text is ever made. -/
theorem Formula.Moderate.outcome {formula : Formula} (h : formula.Moderate) {inputs : Inputs}
    (hinputs : inputs.Moderate) {functions : Dictionary CustomFunction}
    (hanswers : AllModerate functions)
    {number : Decimal} (hnumber : formula.outcome inputs functions = some number) :
    number.Writable ∧ number.Ordered := by
  have hdefaults : formula.AllDefaults Decimal.Writable :=
    Formula.AllDefaults.mono h.defaults fun _ => And.left
  have hgiven : inputs.All Decimal.Writable := Inputs.All.mono hinputs fun _ => And.left
  exact ⟨hdefaults.outcome (fun _ hrounded => hrounded.writable) hgiven hanswers hnumber,
    Decimal.ordered_of_isFinite (isFinite_of_compute (outcome_eq_some_iff.1 hnumber))⟩

/-- The conditions of a record hold for all moderate inputs at once. -/
theorem Formula.Moderate.presentable {formula : Formula} (h : formula.Moderate) {inputs : Inputs}
    (hinputs : inputs.Moderate) {functions : Dictionary CustomFunction}
    (hanswers : ∀ name function, functions.get? name = some function →
      ∀ resolved answer, function resolved = .ok answer → Showable answer.amount?) :
    formula.Presentable inputs functions where
  named := h.named
  comparable := fun _ hoperand _ _ hnumber =>
    (AllDefaults.either h.defaults hinputs hoperand hnumber).2
  numbers := fun _ hresolved operand _ => h.found hinputs hresolved operand.key
  defaults := fun operand hoperand _ number hnumber =>
    (h.defaults operand hoperand number hnumber).1
  coefficients := h.coefficients
  scale := h.scale
  value := fun _ hnumber => (h.outcome hinputs hanswers hnumber).1
  rules := fun number _ => Rule.checkable_of_ordered h.rules number

namespace Evaluation

variable {settings : Settings} {clock : Clock} {now modelId : String} {formula : Formula} {inputs raw : Inputs}
  {functions : Dictionary CustomFunction} {result : CalculationResult} {registry : Registry}

/-- A moderate registry always comes to an end on moderate inputs. -/
theorem evaluate_returns_of_moderate (hregistry : registry.Consistent)
    (hmoderate : registry.Moderate) (hraw : raw.Moderate) :
    Returns (evaluate settings clock modelId registry raw) := by
  -- Everything that has been computed so far is as moderate as the raw inputs.
  refine returns_map_iff.2 (foldlM_returns
    (fun _ progress => Inputs.Moderate (valuesOf progress.results)) ?_ ?_)
  · intro name number hnumber
    simp [valuesOf] at hnumber
  · intro done formula after progress horder hprogress
    obtain ⟨hmem, -, -⟩ := Registry.dependencies_subset_of_executionOrder hregistry horder
    have hformula := hmoderate.formulas formula hmem
    have hinputs := all_overlay hraw hprogress formula.dependencies
    obtain ⟨next, hnext⟩ :=
      advance_returns_iff.2 (hformula.presentable hinputs hmoderate.answers)
    refine ⟨next, hnext, ?_⟩
    obtain ⟨result, hresult, rfl⟩ := advance_eq_ok hnext
    refine all_put hprogress (fun number hnumber => ?_) formula.id
    rw [value_of_evaluateFormula hresult] at hnumber
    exact hformula.outcome hinputs hmoderate.answers hnumber

/-! ## Failures that end a run -/

/-- A failure that ends a run: a number that cannot be written down or compared, or a formula without an
identifier. -/
def EndsRun (registry : Registry) (failure : Failure) : Prop :=
  (∃ signal, failure = .arithmetic signal) ∨
    (∃ formula ∈ registry.formulas, formula.id = "") ∧
      failure = .source (.emptyReference "calculations.")

theorem failsOnly_ofDecimal {α : Type} (answer : Except Decimal.Signal α) :
    FailsOnly (EndsRun registry) (Failure.ofDecimal answer) := by
  cases answer with
  | ok value => exact failsOnly_ok _ value
  | error signal => exact fun failure h => .inl ⟨signal, (Except.error.inj h).symm⟩

theorem failsOnly_forCalculation (hmem : formula ∈ registry.formulas) :
    FailsOnly (EndsRun registry)
      (SourceReference.ofChecked (SourceReference.forCalculation now (some formula.id) none)) := by
  by_cases hid : formula.id = ""
  · rw [hid]
    exact fun failure h => .inr ⟨⟨formula, hmem, hid⟩, (Except.error.inj h).symm⟩
  · rw [forCalculation_eq_ok_iff.2 ⟨rfl, hid⟩]
    exact failsOnly_ok _ _

/-- What ends a run is never the computation, which is caught, but writing about it. -/
theorem failsOnly_evaluateFormula (hmem : formula ∈ registry.formulas) :
    FailsOnly (EndsRun registry) (evaluateFormula settings now formula inputs functions) :=
  (failsOnly_ofDecimal _).bind fun _ => (failsOnly_ofDecimal _).bind fun _ =>
    (failsOnly_ofDecimal _).bind fun _ => (failsOnly_ofDecimal _).bind fun _ =>
      (failsOnly_ofDecimal _).bind fun _ =>
        (failsOnly_forCalculation hmem).bind fun _ => failsOnly_ok _ _

/-- No failure of a computation ends a run, whatever it is. -/
theorem failsOnly_evaluate (hregistry : registry.Consistent) :
    FailsOnly (EndsRun registry) (evaluate settings clock modelId registry raw) := by
  refine FailsOnly.bind (FailsOnly.foldlM (fun formula hmem progress => ?_) _)
    fun _ => failsOnly_ok _ _
  have hregistered := (Registry.executionOrder_perm hregistry).mem_iff.1 hmem
  exact (failsOnly_evaluateFormula hregistered).bind fun _ =>
    (failsOnly_ofDecimal _).bind fun _ => failsOnly_ok _ _

/-! ## The records of a run -/

/-- What a record says about a value that is missing. -/
structure Settles (formula : Formula) (inputs : Inputs) (functions : Dictionary CustomFunction)
    (result : CalculationResult) : Prop where
  value : result.value = formula.outcome inputs functions
  failed : ∀ failure, formula.compute inputs functions = .error failure →
    result.isValid = false ∧ result.error = some ("Computation failed: " ++ failure.message)
  missing : formula.compute inputs functions = .ok none →
    result.error = none ∧ result.warning = some uncomputable

/-- The record says what became of the computation. -/
theorem settles_of_evaluateFormula
    (h : evaluateFormula settings now formula inputs functions = .ok result) :
    Settles formula inputs functions result := by
  have hvalue := value_of_evaluateFormula h
  obtain ⟨_, _, _, _, found, _, -, -, -, -, hfound, -, rfl⟩ := evaluateFormula_eq_ok_iff.1 h
  refine ⟨hvalue, fun failure hfailure => ?_, fun hmissing => ?_⟩
  -- A failed computation is written down as the error, without asking the rules.
  · rw [hfailure] at hfound
    obtain rfl := Except.ok.inj hfound
    exact ⟨rfl, rfl⟩
  -- No rule finds fault with a missing value, so the standard warning stands.
  · rw [hmissing] at hfound
    obtain ⟨finding, hfinding, hfound⟩ := bind_eq_ok.1 hfound
    rw [Formula.validate, Rule.firstFinding_none] at hfinding
    obtain rfl := Except.ok.inj hfinding
    obtain rfl := pure_eq_ok.1 hfound
    exact ⟨rfl, rfl⟩

/-- When a run returns, what it returns, and what may keep it from that.  It returns exactly when no formula
asks for anything impossible, which moderate constants, answers and raw inputs ensure; the trail then has a
record for each formula, and failures and missing values show in the records.  A failure of a computation
never ends a run. -/
theorem evaluate_completion {registry : Registry} (hregistry : registry.Reached)
    (settings : Settings) (clock : Clock) (modelId : String) (entries : Dictionary Payload) :
    (Returns (evaluate settings clock modelId registry (rawInputs entries)) ↔
      ∃ values, Solves registry (rawInputs entries) values ∧ ∀ formula ∈ registry.formulas,
        formula.Presentable (overlaid (rawInputs entries) values formula.dependencies)
          registry.functions) ∧
      (registry.Moderate → (∀ name, Showable (rawInputs entries name)) →
        Returns (evaluate settings clock modelId registry (rawInputs entries))) ∧
      FailsOnly (EndsRun registry) (evaluate settings clock modelId registry (rawInputs entries)) ∧
      ∀ trail, evaluate settings clock modelId registry (rawInputs entries) = .ok trail →
        trail.executionOrder.Perm registry.ids ∧
        ∀ formula ∈ registry.formulas, ∃ result, trail.get? formula.id = some result ∧
          Settles formula
            (overlaid (rawInputs entries) (valuesOf trail.results) formula.dependencies)
            registry.functions result := by
  have hconsistent := hregistry.consistent
  refine ⟨evaluate_returns_iff hconsistent .., fun hmoderate hraw => ?_,
    failsOnly_evaluate hconsistent, fun trail htrail => ⟨?_, fun formula hmem => ?_⟩⟩
  · refine evaluate_returns_of_moderate hconsistent hmoderate fun name number hnumber => ?_
    obtain ⟨payload, -, hamount⟩ := Option.bind_eq_some_iff.1 hnumber
    exact ⟨hraw name number hnumber,
      Decimal.ordered_of_isFinite (Payload.isFinite_of_amount? hamount)⟩
  · rw [executionOrder_of_evaluate hconsistent htrail]
    exact (Registry.executionOrder_perm hconsistent).map Formula.id
  · obtain ⟨result, hresult, hevaluated⟩ := get?_of_evaluate hconsistent htrail hmem
    exact ⟨result, hresult, settles_of_evaluateFormula hevaluated⟩

open DirectCap

/-- The registry of the example has moderate constants, and its function gives no answer at all. -/
theorem moderate_surveyed :
    (surveyed [grossPotentialIncome, surveyedVacancy, effectiveGrossIncome]).Moderate := by
  have hzero : Decimal.zero.Writable ∧ Decimal.zero.Ordered := ⟨Decimal.writable_zero, trivial⟩
  have hrate : defaultVacancyRate.Writable ∧ defaultVacancyRate.Ordered :=
    ⟨fun hwhole => absurd hwhole (by decide +kernel), trivial⟩
  refine ⟨?_, fun name function hfunction resolved answer hanswer => ?_⟩
  · simp only [surveyed, List.forall_mem_cons, List.not_mem_nil, false_implies, implies_true,
      and_true]
    refine ⟨⟨by decide, ?_, ?_, ?_, ?_⟩, ⟨by decide, ?_, ?_, ?_, ?_⟩, ⟨by decide, ?_, ?_, ?_, ?_⟩⟩
    all_goals simp [grossPotentialIncome, surveyedVacancy, vacancyAllowance, effectiveGrossIncome,
      entry, DirectCap.result, Showable, hzero, hrate]
  · by_cases hname : name = "survey"
    · rw [hname] at hfunction
      obtain rfl := Option.some.inj hfunction
      cases hanswer
    · simp [surveyed, Dictionary.get?_cons_of_ne _ _ hname] at hfunction

theorem compute_surveyedVacancy (formulas : List Formula) (inputs : Inputs) :
    surveyedVacancy.compute inputs (surveyed formulas).functions =
      .error (.raised "LookupError" "no survey") := by
  obtain ⟨resolved, hresolved⟩ := (Formula.resolve_returns_iff surveyedVacancy inputs).2
    (by simp [surveyedVacancy, vacancyAllowance, entry, DirectCap.result])
  unfold Formula.compute
  rw [hresolved]
  rfl

/-- The failure of the survey is recorded and does not keep the run from returning. -/
theorem evaluate_completion_surveyed :
    ∃ trail result,
      evaluate .usual "monday" "a"
        (surveyed [grossPotentialIncome, surveyedVacancy, effectiveGrossIncome])
        (rawInputs [("totalRevenue", .text "1,000.50")]) = .ok trail ∧
      trail.get? "vacancyAllowance" = some result ∧ result.value = none ∧
      result.isValid = false ∧ result.error = some "Computation failed: no survey" := by
  have hreached : (surveyed
      [grossPotentialIncome, surveyedVacancy, effectiveGrossIncome]).Reached :=
    reached_surveyed (by cbv)
  obtain ⟨-, hreturns, -, hrecords⟩ := evaluate_completion hreached .usual "monday" "a"
    [("totalRevenue", .text "1,000.50")]
  have hraw : ∀ name, Showable (rawInputs [("totalRevenue", .text "1,000.50")] name) := by
    intro name number hnumber
    by_cases hname : name = "totalRevenue"
    · rw [hname, show rawInputs [("totalRevenue", .text "1,000.50")] "totalRevenue" =
        some (.finite false 100050 (-2)) by decide +kernel] at hnumber
      obtain rfl := Option.some.inj hnumber
      exact fun hwhole => absurd hwhole (by decide +kernel)
    · simp [rawInputs, Dictionary.get?_cons_of_ne _ _ hname] at hnumber
  obtain ⟨trail, htrail⟩ := hreturns moderate_surveyed hraw
  obtain ⟨result, hresult, hsettles⟩ :=
    (hrecords trail htrail).2 surveyedVacancy (by simp [surveyed])
  refine ⟨trail, result, htrail, hresult, ?_, hsettles.failed _ (compute_surveyedVacancy ..)⟩
  rw [hsettles.value, Formula.outcome, compute_surveyedVacancy]

/-- Whether a computation ends in an overflow. -/
def overflows {α : Type} : Except Failure α → Bool
  | .error (.arithmetic .overflow) => true
  | _ => false

theorem eq_overflow_of_overflows {α : Type} {answer : Except Failure α}
    (h : overflows answer = true) : answer = .error (.arithmetic .overflow) := by
  unfold overflows at h
  split at h
  · rfl
  · cases h

/-- A revenue beyond the range of results ends the run, because it cannot be written down; the failure to
add it up would have been recorded. -/
theorem evaluate_overflow :
    (surveyed [grossPotentialIncome]).Reached ∧
      grossPotentialIncome.compute (rawInputs [("totalRevenue", .text "1e1000000")])
        (surveyed [grossPotentialIncome]).functions = .error (.arithmetic .overflow) ∧
      evaluate .usual "" "" (surveyed [grossPotentialIncome])
        (rawInputs [("totalRevenue", .text "1e1000000")]) = .error (.arithmetic .overflow) :=
  ⟨reached_surveyed (by cbv), eq_overflow_of_overflows (by decide +kernel),
    eq_overflow_of_overflows (by decide +kernel)⟩

end Evaluation

end Appraisal
