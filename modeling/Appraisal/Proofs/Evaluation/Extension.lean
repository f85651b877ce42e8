import Appraisal.Proofs.Evaluation.Influence
import Appraisal.Proofs.Registry.ExecutionOrder

/-!
# Runs of an extended registry

The formulas that are there run before those of a batch that is registered behind them.  So a run of the
extended registry goes through a run of the registry as it was, and then only adds to its records and
warnings.  The clock of a run shows in the dates of its records and nowhere else in them.
-/

namespace Appraisal

open Evaluation (Clock)

/-- The record as a run by another clock would hold it. -/
def CalculationResult.datedBy (clock : Clock) (result : CalculationResult) : CalculationResult :=
  result.dated (clock.recorded result.formulaId)

/-- The trail as a run by another clock for another model would leave it. -/
def AuditTrail.dated (clock : Clock) (modelId : String) (trail : AuditTrail) : AuditTrail :=
  { trail with
    modelId
    timestamp := clock.begun
    calculations := trail.calculations.map (CalculationResult.datedBy clock)
    processingTimeMs := some clock.elapsed }

namespace Evaluation

variable {settings : Settings} {clock : Clock} {modelId : String} {registry : Registry} {raw : Inputs}
  {functions : Dictionary CustomFunction} {formula : Formula} {formulas batch : List Formula}
  {progress next final : Progress} {trail : AuditTrail}

/-! ## Runs by different clocks -/

/-- The results so far as a run by another clock would hold them. -/
def Progress.dated (clock : Clock) (progress : Progress) : Progress :=
  { progress with calculations := progress.calculations.map (CalculationResult.datedBy clock) }

/-- Another clock changes the date of the new record and nothing else in the step. -/
theorem advance_dated (otherClock : Clock)
    (h : advance settings clock raw functions progress formula = .ok next) :
    advance settings otherClock raw functions (progress.dated otherClock) formula =
      .ok (next.dated otherClock) := by
  obtain ⟨result, hresult, h⟩ := bind_eq_ok.1 h
  obtain ⟨text, htext, h⟩ := bind_eq_ok.1 h
  obtain rfl := pure_eq_ok.1 h
  -- The date of the record is looked up by its formula, whose identifier the record bears.
  have hsame : result.datedBy otherClock = result.dated (otherClock.recorded formula.id) := by
    rw [CalculationResult.datedBy, formulaId_of_evaluateFormula hresult]
  have hdated := evaluateFormula_congr (otherClock.recorded formula.id) (fun _ _ => rfl) (fun _ => rfl)
    hresult
  rw [← hsame] at hdated
  refine bind_eq_ok.2 ⟨result.datedBy otherClock, hdated, bind_eq_ok.2 ⟨text, htext, ?_⟩⟩
  have hline : warningLine formula (result.datedBy otherClock) = warningLine formula result := rfl
  rw [pure_eq_ok, Progress.dated, Progress.dated, List.map_append, hline]
  rfl

/-- A run that returns by one clock returns by any other, with the same records but for their dates. -/
theorem evaluate_dated (otherClock : Clock) (otherModelId : String)
    (h : evaluate settings clock modelId registry raw = .ok trail) :
    evaluate settings otherClock otherModelId registry raw =
      .ok (trail.dated otherClock otherModelId) := by
  obtain ⟨progress, hprogress, rfl⟩ := evaluate_eq_ok h
  have hdated := foldlM_transfer (Progress.dated otherClock)
    (fun _ _ _ hnext => advance_dated otherClock hnext) hprogress
  exact bind_eq_ok.2 ⟨progress.dated otherClock, hdated, rfl⟩

/-! ## Runs that go on -/

/-- What has been recorded stays as it is, whatever runs after it. -/
theorem prefix_of_foldlM_advance
    (h : formulas.foldlM (advance settings clock raw functions) progress = .ok final) :
    progress.calculations <+: final.calculations ∧ progress.warnings <+: final.warnings := by
  refine foldlM_invariant (fun _ state => progress.calculations <+: state.calculations ∧
    progress.warnings <+: state.warnings) ⟨List.prefix_rfl, List.prefix_rfl⟩ ?_ h
  rintro done formula after state next - ⟨hcalculations, hwarnings⟩ hnext
  obtain ⟨result, -, rfl⟩ := advance_eq_ok hnext
  exact ⟨hcalculations.trans (List.prefix_append _ _), hwarnings.trans (List.prefix_append _ _)⟩

/-- A run of an extended registry goes through a run of the registry as it was. -/
theorem evaluate_of_append (hregistry : registry.Consistent) (haccepts : registry.Accepts batch)
    (h : evaluate settings clock modelId { registry with formulas := registry.formulas ++ batch } raw =
      .ok trail) :
    ∃ earlier, evaluate settings clock modelId registry raw = .ok earlier ∧
      earlier.calculations <+: trail.calculations ∧ earlier.warnings <+: trail.warnings := by
  obtain ⟨later, horder⟩ := Registry.executionOrder_append hregistry haccepts
  obtain ⟨final, hfinal, rfl⟩ := evaluate_eq_ok h
  rw [horder, List.foldlM_append] at hfinal
  obtain ⟨progress, hprogress, hlater⟩ := bind_eq_ok.1 hfinal
  exact ⟨_, bind_eq_ok.2 ⟨progress, hprogress, rfl⟩, prefix_of_foldlM_advance hlater⟩

open Registrar (after)

/-- What an accepted batch leaves as it is, whatever has been asked of the registrar before: the order of
execution only gets longer, and where the extended registry can be evaluated, so can the registry as it was,
and the records and the warnings of the longer run begin with those of the shorter one. -/
theorem evaluate_extension (requests : List Registrar.Request) {batch : List Formula}
    (haccepted : ((after requests).register batch).1 = .accepted) :
    let registrar := after requests
    let extended := (registrar.register batch).2
    (∃ order later, registrar.executionOrder.1 = .order order ∧
        extended.executionOrder.1 = .order (order ++ later)) ∧
      ∀ settings clock otherClock modelId otherModelId entries otherTrail,
        evaluate settings otherClock otherModelId extended.registry (rawInputs entries) =
            .ok otherTrail →
          ∃ trail,
            evaluate settings clock modelId registrar.registry (rawInputs entries) = .ok trail ∧
            trail.calculations.map (CalculationResult.datedBy otherClock) <+: otherTrail.calculations ∧
            trail.warnings <+: otherTrail.warnings := by
  intro registrar extended
  have hregistry : registrar.registry.Consistent := (Registrar.reached_after requests).consistent
  have haccepts := (Registrar.register_accepted_iff hregistry).1 haccepted
  have hextended : extended = _ := Registrar.register_eq_of_accepts hregistry haccepts
  constructor
  · obtain ⟨later, hlater⟩ := Registry.executionOrder_append hregistry haccepts
    refine ⟨registrar.registry.executionOrder.map Formula.id, later.map Formula.id,
      Registrar.executionOrder_answer hregistry (Registrar.remembers_after requests), ?_⟩
    have hremembers : extended.Remembers :=
      Registrar.remembers_serve (Registrar.remembers_after requests) (.register batch)
    have hconsistent : extended.registry.Consistent := by
      rw [hextended]
      exact hregistry.append haccepts
    rw [Registrar.executionOrder_answer hconsistent hremembers, hextended, hlater, List.map_append]
  · intro settings clock otherClock modelId otherModelId entries otherTrail hrun
    rw [hextended] at hrun
    obtain ⟨earlier, hearlier, hcalculations, hwarnings⟩ :=
      evaluate_of_append hregistry haccepts hrun
    -- The run that the longer one goes through is dated like it; the one asked for may be dated otherwise.
    have htrail := evaluate_dated clock modelId hearlier
    have hback := evaluate_dated otherClock otherModelId htrail
    have hsame := congrArg AuditTrail.calculations (Except.ok.inj (hearlier.symm.trans hback))
    rw [hsame] at hcalculations
    exact ⟨earlier.dated clock modelId, htrail, hcalculations, hwarnings⟩

open DirectCap

/-- The requests by which an income statement is registered, its last line first. -/
def incomeRequests : List Registrar.Request :=
  [.registerFunction "survey" unansweredSurvey,
    .register [effectiveGrossIncome, surveyedVacancy, grossPotentialIncome], .executionOrder]

/-- Expenses that are registered behind an income statement are run behind it, and the warning that they
exceed the income is added behind that of the survey that failed. -/
theorem evaluate_extension_expenses :
    ∃ order later trail otherTrail,
      ((after incomeRequests).register [expenseRatio, totalOperatingExpenses]).1 = .accepted ∧
      (after incomeRequests).executionOrder.1 = .order order ∧
      ((after incomeRequests).register [expenseRatio, totalOperatingExpenses]).2.executionOrder.1 =
        .order (order ++ later) ∧
      evaluate .usual "monday" "a" (after incomeRequests).registry
        (rawInputs [("totalRevenue", .int 1000), ("totalExpenses", .int 1200)]) = .ok trail ∧
      evaluate .usual "tuesday" "b"
        ((after incomeRequests).register [expenseRatio, totalOperatingExpenses]).2.registry
        (rawInputs [("totalRevenue", .int 1000), ("totalExpenses", .int 1200)]) = .ok otherTrail ∧
      trail.calculations.map (CalculationResult.datedBy "tuesday") <+: otherTrail.calculations ∧
      trail.warnings <+: otherTrail.warnings ∧
      otherTrail.warnings = ["Vacancy Allowance: Computation failed: no survey",
        "Expense Ratio: Expense ratio over 100% - expenses exceed income"] := by
  have hstatement : (surveyed []).register
      [effectiveGrossIncome, surveyedVacancy, grossPotentialIncome] =
        .ok (surveyed [effectiveGrossIncome, surveyedVacancy, grossPotentialIncome]) := by cbv
  have hexpenses : (surveyed [effectiveGrossIncome, surveyedVacancy, grossPotentialIncome]).register
      [expenseRatio, totalOperatingExpenses] =
        .ok (surveyed [effectiveGrossIncome, surveyedVacancy, grossPotentialIncome, expenseRatio,
          totalOperatingExpenses]) := by cbv
  -- Asking for the order of execution has stored it; the registry is the one before.
  have hafter : (after incomeRequests).registry =
      surveyed [effectiveGrossIncome, surveyedVacancy, grossPotentialIncome] := by
    refine Eq.trans (Registrar.registry_executionOrder _) ?_
    show (Registrar.register { registry := surveyed [], remembered := none } _).2.registry = _
    rw [Registrar.register, hstatement]
  have hregistered : (after incomeRequests).register [expenseRatio, totalOperatingExpenses] =
      (.accepted, { registry := surveyed [effectiveGrossIncome, surveyedVacancy,
        grossPotentialIncome, expenseRatio, totalOperatingExpenses], remembered := none }) := by
    rw [Registrar.register, hafter, hexpenses]
  have haccepted : ((after incomeRequests).register [expenseRatio, totalOperatingExpenses]).1 =
      .accepted := by rw [hregistered]
  obtain ⟨⟨order, later, horder, hextended⟩, hruns⟩ := evaluate_extension incomeRequests haccepted
  obtain ⟨otherTrail, hother, hwarnings⟩ := Option.map_eq_some_iff.1
    (show (evaluate .usual "tuesday" "b" (surveyed [effectiveGrossIncome, surveyedVacancy,
        grossPotentialIncome, expenseRatio, totalOperatingExpenses])
        (rawInputs [("totalRevenue", .int 1000), ("totalExpenses", .int 1200)])).toOption.map
          AuditTrail.warnings =
      some ["Vacancy Allowance: Computation failed: no survey",
        "Expense Ratio: Expense ratio over 100% - expenses exceed income"] by decide +kernel)
  rw [toOption_eq_some] at hother
  have hotherRun : evaluate .usual "tuesday" "b"
      ((after incomeRequests).register [expenseRatio, totalOperatingExpenses]).2.registry
      (rawInputs [("totalRevenue", .int 1000), ("totalExpenses", .int 1200)]) = .ok otherTrail := by
    rw [hregistered]
    exact hother
  obtain ⟨trail, htrail, hcalculations, hprefix⟩ :=
    hruns .usual "monday" "tuesday" "a" "b" _ otherTrail hotherRun
  exact ⟨order, later, trail, otherTrail, haccepted, horder, hextended, htrail, hotherRun,
    hcalculations, hprefix, hwarnings⟩

end Evaluation
end Appraisal
