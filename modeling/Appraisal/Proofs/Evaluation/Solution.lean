import Appraisal.Evaluation.Run
import Appraisal.Formula.DirectCap
import Appraisal.Proofs.Fallible
import Appraisal.Proofs.Registry.ExecutionOrder

/-!
# The results of a run

A run evaluates the formulas one by one, and what it yields is the one solution of the equations that the formulas
state.
-/

namespace Appraisal

/-!
## What a run consists of

A run that returns has evaluated the formulas one by one in the order of execution.  The value in the
record of a formula is what the formula computes on its inputs, or none where the computation fails.
-/

/-- What a formula computes, where a failure counts as no value. -/
def Formula.outcome (formula : Formula) (inputs : Inputs) (functions : Dictionary CustomFunction) :
    Option Decimal :=
  match formula.compute inputs functions with
  | .ok value => value
  | .error _ => none

namespace Evaluation

theorem value_verdictOf (value : Option Decimal) (finding : ValidationResult) :
    (verdictOf value finding).value = value := by
  unfold verdictOf
  cases finding.severity <;> rfl

/-- Checking a value never changes it. -/
theorem value_of_verdict {formula : Formula} {inputs : Inputs}
    {functions : Dictionary CustomFunction} {found : Verdict}
    (h : verdict formula (formula.compute inputs functions) = .ok found) :
    found.value = formula.outcome inputs functions := by
  unfold Formula.outcome
  cases hcompute : formula.compute inputs functions with
  | error failure =>
      rw [hcompute] at h
      obtain rfl := Except.ok.inj h
      rfl
  | ok value =>
      rw [hcompute] at h
      obtain ⟨finding, -, hfinding⟩ := bind_eq_ok.1 h
      obtain rfl := pure_eq_ok.1 hfinding
      exact value_verdictOf value finding

/-- All the rest of a record is about this value. -/
theorem value_of_evaluateFormula {settings : Settings} {now : String} {formula : Formula}
    {inputs : Inputs} {functions : Dictionary CustomFunction} {result : CalculationResult}
    (h : evaluateFormula settings now formula inputs functions = .ok result) :
    result.value = formula.outcome inputs functions := by
  unfold evaluateFormula at h
  obtain ⟨resolved, -, h⟩ := bind_eq_ok.1 h
  obtain ⟨steps, -, h⟩ := bind_eq_ok.1 h
  obtain ⟨footnotes, -, h⟩ := bind_eq_ok.1 h
  obtain ⟨expression, -, h⟩ := bind_eq_ok.1 h
  obtain ⟨found, hfound, h⟩ := bind_eq_ok.1 h
  obtain ⟨source, -, h⟩ := bind_eq_ok.1 h
  obtain rfl := pure_eq_ok.1 h
  exact value_of_verdict (ofDecimal_eq_ok.1 hfound)

/-- What one more formula adds to a run. -/
theorem advance_eq_ok {settings : Settings} {clock : Clock} {raw : Inputs}
    {functions : Dictionary CustomFunction} {progress next : Progress} {formula : Formula}
    (h : advance settings clock raw functions progress formula = .ok next) :
    ∃ result, evaluateFormula settings (clock.recorded formula.id) formula
        (overlay raw progress.results formula.dependencies) functions = .ok result ∧
      next = {
        calculations := progress.calculations ++ [result]
        results := progress.results.put formula.id result.value
        warnings := progress.warnings ++ warningLine formula result } := by
  unfold advance at h
  obtain ⟨result, hresult, h⟩ := bind_eq_ok.1 h
  obtain ⟨text, -, h⟩ := bind_eq_ok.1 h
  exact ⟨result, hresult, (pure_eq_ok.1 h).symm⟩

/-- What a run that returns has gone through. -/
theorem evaluate_eq_ok {settings : Settings} {clock : Clock} {modelId : String} {registry : Registry}
    {raw : Inputs} {trail : AuditTrail}
    (h : evaluate settings clock modelId registry raw = .ok trail) :
    ∃ progress, registry.executionOrder.foldlM (advance settings clock raw registry.functions)
        { calculations := [], results := [], warnings := [] } = .ok progress ∧
      trail = {
        modelId
        timestamp := clock.begun
        calculations := progress.calculations
        results := progress.results
        warnings := progress.warnings
        processingTimeMs := some clock.elapsed } := by
  unfold evaluate at h
  obtain ⟨progress, hprogress, h⟩ := bind_eq_ok.1 h
  exact ⟨progress, hprogress, (pure_eq_ok.1 h).symm⟩

/-!
## The results as the solution of equations

Every formula states an equation: its value is what it computes on the raw inputs, with the values of its
dependencies in the place of the inputs of their names.  A run yields the one solution of all these
equations.  So neither the order of registration nor the way in which the dependencies are listed has an
influence on the results.
-/

/-- The inputs of a formula, when values have been assigned to formulas: its dependencies stand for their
values, all else for raw inputs. -/
def overlaid (raw : Inputs) (values : String → Option Decimal) (dependencies : List String) : Inputs :=
  fun name => if name ∈ dependencies then values name else raw name

/-- The values of formulas that a dictionary of results stands for. -/
def valuesOf (results : Dictionary (Option Decimal)) : String → Option Decimal :=
  fun id => (results.get? id).join

/-- The values satisfy the equations of all formulas of a registry. -/
def Solves (registry : Registry) (raw : Inputs) (values : String → Option Decimal) : Prop :=
  ∀ formula ∈ registry.formulas, values formula.id =
    formula.outcome (overlaid raw values formula.dependencies) registry.functions

/-- What a formula reads in a run is the raw inputs with the results of its dependencies over them. -/
theorem overlay_eq_overlaid (raw : Inputs) (results : Dictionary (Option Decimal))
    (dependencies : List String) :
    overlay raw results dependencies = overlaid raw (valuesOf results) dependencies := rfl

/-- A formula reads the values of its dependencies and no others. -/
theorem overlaid_congr {raw : Inputs} {first second : String → Option Decimal}
    {dependencies : List String}
    (h : ∀ dependency ∈ dependencies, first dependency = second dependency) :
    overlaid raw first dependencies = overlaid raw second dependencies := by
  funext name
  unfold overlaid
  split
  · next hmem => exact h name hmem
  · rfl

theorem valuesOf_put_self (results : Dictionary (Option Decimal)) (id : String)
    (value : Option Decimal) : valuesOf (results.put id value) id = value := by
  simp [valuesOf, Dictionary.get?_put_self]

theorem valuesOf_put_of_ne (results : Dictionary (Option Decimal)) {id other : String}
    (value : Option Decimal) (h : other ≠ id) :
    valuesOf (results.put id value) other = valuesOf results other := by
  simp [valuesOf, Dictionary.get?_put_of_ne results value h]

theorem get?_eq_some_valuesOf {results : Dictionary (Option Decimal)} {id : String}
    (h : id ∈ results.keys) : results.get? id = some (valuesOf results id) := by
  cases hget : results.get? id with
  | none => exact absurd h ((Dictionary.get?_eq_none_iff _ _).1 hget)
  | some value => simp [valuesOf, hget]

/-! ### There is one solution -/

/-- The equation of a formula reads registered formulas only. -/
theorem outcome_congr {registry : Registry} (hregistry : registry.Consistent) {raw : Inputs}
    {first second : String → Option Decimal} {formula : Formula}
    (hmem : formula ∈ registry.formulas)
    (h : ∀ other ∈ registry.formulas, other.id ∈ formula.dependencies →
      first other.id = second other.id) :
    formula.outcome (overlaid raw first formula.dependencies) registry.functions =
      formula.outcome (overlaid raw second formula.dependencies) registry.functions := by
  rw [overlaid_congr fun dependency hdependency => ?_]
  obtain ⟨other, hother, rfl⟩ := List.mem_map.1 (hregistry.closed formula hmem hdependency)
  exact h other hother hdependency

/-- Two solutions agree on every registered formula. -/
theorem Solves.agree {registry : Registry} (hregistry : registry.Consistent) {raw : Inputs}
    {first second : String → Option Decimal} (hfirst : Solves registry raw first)
    (hsecond : Solves registry raw second) :
    ∀ formula ∈ registry.formulas, first formula.id = second formula.id := by
  refine hregistry.induction fun formula hmem hdependencies => ?_
  rw [hfirst formula hmem, hsecond formula hmem]
  exact outcome_congr hregistry hmem hdependencies

/-- Values that agree with a solution on every registered formula are a solution. -/
theorem Solves.of_agree {registry : Registry} (hregistry : registry.Consistent) {raw : Inputs}
    {first second : String → Option Decimal} (hfirst : Solves registry raw first)
    (h : ∀ formula ∈ registry.formulas, first formula.id = second formula.id) :
    Solves registry raw second := by
  intro formula hmem
  rw [← h formula hmem, hfirst formula hmem]
  exact outcome_congr hregistry hmem fun other hother _ => h other hother

/-! ### A run yields the solution -/

/-- The formulas that have run have satisfied their equations. -/
structure Solved (registry : Registry) (raw : Inputs) (done : List Formula) (progress : Progress) :
    Prop where
  keys : progress.results.keys = done.map Formula.id
  equations : ∀ formula ∈ done, valuesOf progress.results formula.id =
    formula.outcome (overlaid raw (valuesOf progress.results) formula.dependencies)
      registry.functions

/-- A step adds a result that no earlier equation reads, and the new equation holds by construction. -/
theorem Solved.advance {registry : Registry} (hregistry : registry.Consistent)
    {settings : Settings} {clock : Clock} {raw : Inputs} {done after : List Formula}
    {formula : Formula} {progress next : Progress}
    (horder : registry.executionOrder = done ++ formula :: after)
    (h : Solved registry raw done progress)
    (hnext : Evaluation.advance settings clock raw registry.functions progress formula = .ok next) :
    Solved registry raw (done ++ [formula]) next := by
  obtain ⟨result, hresult, rfl⟩ := advance_eq_ok hnext
  obtain ⟨-, hdependencies, hfresh⟩ :=
    Registry.dependencies_subset_of_executionOrder hregistry horder
  -- Neither the formulas that have run nor the new one read the new result.
  have hkept : ∀ dependencies : List String, dependencies ⊆ done.map Formula.id →
      overlaid raw (valuesOf (progress.results.put formula.id result.value)) dependencies =
        overlaid raw (valuesOf progress.results) dependencies := fun dependencies hsub =>
    overlaid_congr fun dependency hmem =>
      valuesOf_put_of_ne _ _ fun heq => hfresh (heq ▸ hsub hmem)
  constructor
  · rw [Dictionary.keys_put_of_not_mem _ _ (h.keys ▸ hfresh), h.keys]
    simp
  · intro other hmem
    rcases List.mem_append.1 hmem with hdone | hnew
    · have hother : other.dependencies ⊆ done.map Formula.id := by
        obtain ⟨before, between, rfl⟩ := List.append_of_mem hdone
        rw [List.append_assoc, List.cons_append] at horder
        obtain ⟨-, hbefore, -⟩ := Registry.dependencies_subset_of_executionOrder hregistry horder
        exact fun dependency hdependency => by
          rw [List.map_append]
          exact List.mem_append_left _ (hbefore hdependency)
      have hne : other.id ≠ formula.id := fun heq =>
        hfresh (heq ▸ List.mem_map_of_mem hdone)
      rw [valuesOf_put_of_ne _ _ hne, hkept _ hother, h.equations other hdone]
    · obtain rfl := List.mem_singleton.1 hnew
      rw [valuesOf_put_self, hkept _ hdependencies, value_of_evaluateFormula hresult,
        overlay_eq_overlaid]

/-- A run yields a solution, with one result for each formula, in the order of execution. -/
theorem solved_of_evaluate {registry : Registry} (hregistry : registry.Consistent)
    {settings : Settings} {clock : Clock} {modelId : String} {raw : Inputs} {trail : AuditTrail}
    (h : evaluate settings clock modelId registry raw = .ok trail) :
    trail.results.keys = registry.executionOrder.map Formula.id ∧
      Solves registry raw (valuesOf trail.results) := by
  obtain ⟨progress, hprogress, rfl⟩ := evaluate_eq_ok h
  -- What has been evaluated so far is solved, at every step of the run.
  have hsolved : Solved registry raw registry.executionOrder progress :=
    foldlM_invariant (Solved registry raw) ⟨rfl, by simp⟩
      (fun _ _ _ _ _ horder hdone hnext => hdone.advance hregistry horder hnext) hprogress
  exact ⟨hsolved.keys, fun formula hmem =>
    hsolved.equations formula ((Registry.executionOrder_perm hregistry).mem_iff.2 hmem)⟩

/-- Every formula has one result. -/
theorem keys_perm_of_evaluate {registry : Registry} (hregistry : registry.Consistent)
    {settings : Settings} {clock : Clock} {modelId : String} {raw : Inputs} {trail : AuditTrail}
    (h : evaluate settings clock modelId registry raw = .ok trail) :
    trail.results.keys.Perm registry.ids := by
  rw [(solved_of_evaluate hregistry h).1]
  exact (Registry.isSchedule_executionOrder hregistry).complete

/-- The results of a run are the only solution. -/
theorem solves_iff_of_evaluate {registry : Registry} (hregistry : registry.Consistent)
    {settings : Settings} {clock : Clock} {modelId : String} {raw : Inputs} {trail : AuditTrail}
    (h : evaluate settings clock modelId registry raw = .ok trail)
    (values : String → Option Decimal) :
    Solves registry raw values ↔ ∀ id ∈ registry.ids, trail.results.get? id = some (values id) := by
  have hkeys := keys_perm_of_evaluate hregistry h
  have hsolves := (solved_of_evaluate hregistry h).2
  have hget : ∀ id ∈ registry.ids,
      trail.results.get? id = some (valuesOf trail.results id) := fun id hid =>
    get?_eq_some_valuesOf (hkeys.mem_iff.2 hid)
  constructor
  -- There is one solution, and the results are one.
  · intro hvalues id hid
    obtain ⟨formula, hmem, rfl⟩ := List.mem_map.1 hid
    rw [hget _ hid, hsolves.agree hregistry hvalues formula hmem]
  · intro hvalues
    refine hsolves.of_agree hregistry fun formula hmem => ?_
    have hid : formula.id ∈ registry.ids := List.mem_map_of_mem hmem
    exact Option.some.inj ((hget _ hid).symm.trans (hvalues _ hid))

/-! ### What the results depend on -/

end Evaluation

/-- Two formulas differ at most in the order and the repetition of their dependencies. -/
structure Formula.AgreesWith (first second : Formula) : Prop where
  definition : { first with dependencies := second.dependencies } = second
  dependencies : ∀ id, id ∈ first.dependencies ↔ id ∈ second.dependencies

/-- Two registries hold the same formulas, up to the order and the repetition of dependencies, and the same
functions, in whatever order they have been registered. -/
structure Registry.AgreesWith (first second : Registry) : Prop where
  forth : ∀ formula ∈ first.formulas, ∃ other ∈ second.formulas, formula.AgreesWith other
  back : ∀ other ∈ second.formulas, ∃ formula ∈ first.formulas, formula.AgreesWith other
  functions : ∀ name, first.functions.get? name = second.functions.get? name

theorem Formula.AgreesWith.refl (formula : Formula) : formula.AgreesWith formula :=
  ⟨rfl, fun _ => Iff.rfl⟩

theorem Formula.AgreesWith.id_eq {first second : Formula} (h : first.AgreesWith second) :
    first.id = second.id := by
  rw [← h.definition]

theorem Registry.AgreesWith.mem_ids_iff {first second : Registry} (h : first.AgreesWith second)
    (id : String) : id ∈ first.ids ↔ id ∈ second.ids := by
  simp only [Registry.ids, List.mem_map]
  constructor
  · rintro ⟨formula, hmem, rfl⟩
    obtain ⟨other, hother, hagrees⟩ := h.forth formula hmem
    exact ⟨other, hother, hagrees.id_eq.symm⟩
  · rintro ⟨other, hmem, rfl⟩
    obtain ⟨formula, hformula, hagrees⟩ := h.back other hmem
    exact ⟨formula, hformula, hagrees.id_eq⟩

namespace Evaluation

/-- Formulas that differ in the order of their dependencies only compute the same. -/
theorem outcome_eq_of_agreesWith {first second : Formula} (h : first.AgreesWith second)
    {firstFunctions secondFunctions : Dictionary CustomFunction}
    (hfunctions : ∀ name, firstFunctions.get? name = secondFunctions.get? name)
    (raw : Inputs) (values : String → Option Decimal) :
    first.outcome (overlaid raw values first.dependencies) firstFunctions =
      second.outcome (overlaid raw values second.dependencies) secondFunctions := by
  have hinputs : overlaid raw values first.dependencies =
      overlaid raw values second.dependencies := by
    funext name
    simp only [overlaid, h.dependencies name]
  rw [hinputs, ← h.definition]
  simp only [Formula.outcome, Formula.compute, Formula.rawResult, hfunctions]
  rfl

/-- Registries that agree state the same equations. -/
theorem Solves.of_agreesWith {first second : Registry} (h : first.AgreesWith second) {raw : Inputs}
    {values : String → Option Decimal} (hvalues : Solves first raw values) :
    Solves second raw values := by
  intro other hother
  obtain ⟨formula, hmem, hagrees⟩ := h.back other hother
  rw [← hagrees.id_eq, hvalues formula hmem, outcome_eq_of_agreesWith hagrees h.functions]

/-- The results of a run that returns: there is one for every registered formula, and they are the one
solution of the equations that the formulas state.  Runs of registries that agree have the same results. -/
theorem evaluate_exact {registry : Registry} (hregistry : registry.Reached)
    {settings : Settings} {clock : Clock} {modelId : String} {entries : Dictionary Payload} {trail : AuditTrail}
    (h : evaluate settings clock modelId registry (rawInputs entries) = .ok trail) :
    trail.results.keys.Perm registry.ids ∧
      (∀ values : String → Option Decimal, Solves registry (rawInputs entries) values ↔
        ∀ id ∈ registry.ids, trail.results.get? id = some (values id)) ∧
      ∀ (other : Registry) (otherSettings : Settings) (otherClock : Clock) (otherModelId : String)
        (otherTrail : AuditTrail), other.Reached → registry.AgreesWith other →
        evaluate otherSettings otherClock otherModelId other (rawInputs entries) = .ok otherTrail →
          ∀ id, trail.results.get? id = otherTrail.results.get? id := by
  have hkeys := keys_perm_of_evaluate hregistry.consistent h
  have hsolves := (solved_of_evaluate hregistry.consistent h).2
  refine ⟨hkeys, solves_iff_of_evaluate hregistry.consistent h, ?_⟩
  intro other otherSettings otherClock otherModelId otherTrail hother hagrees hrun id
  -- The values of the first run solve the equations of the other registry too, and it has one solution.
  by_cases hid : id ∈ registry.ids
  · rw [get?_eq_some_valuesOf (hkeys.mem_iff.2 hid)]
    exact ((solves_iff_of_evaluate hother.consistent hrun _).1 (hsolves.of_agreesWith hagrees) id
      ((hagrees.mem_ids_iff id).1 hid)).symm
  · have hotherKeys := keys_perm_of_evaluate hother.consistent hrun
    rw [(Dictionary.get?_eq_none_iff _ _).2 (mt hkeys.mem_iff.1 hid),
      (Dictionary.get?_eq_none_iff _ _).2
        (mt hotherKeys.mem_iff.1 (mt (hagrees.mem_ids_iff id).2 hid))]

open DirectCap

/-- A function that never has an answer. -/
def unansweredSurvey : CustomFunction := fun _ => .error (.raised "LookupError" "no survey")

/-- A registry of formulas that has the survey as its only function. -/
def surveyed (formulas : List Formula) : Registry :=
  { formulas, functions := [("survey", unansweredSurvey)] }

/-- A vacancy allowance that is asked of the survey. -/
def surveyedVacancy : Formula :=
  { vacancyAllowance defaultVacancyRate with operation := .custom, function := some "survey" }

/-- The effective gross income with its dependencies in another order, one of them twice. -/
def relistedIncome : Formula :=
  { effectiveGrossIncome with
    dependencies := ["vacancyAllowance", "grossPotentialIncome", "vacancyAllowance"] }

theorem reached_surveyed {formulas : List Formula}
    (h : (surveyed []).register formulas = .ok (surveyed formulas)) :
    (surveyed formulas).Reached :=
  .register formulas (.registerFunction "survey" unansweredSurvey .empty rfl) h

theorem agreesWith_relistedIncome : effectiveGrossIncome.AgreesWith relistedIncome := by
  refine ⟨rfl, fun id => ?_⟩
  simp only [relistedIncome, effectiveGrossIncome, List.mem_cons]
  tauto

/-- An income statement that is registered forwards and backwards: the failure of the survey hides the
vacancy that stands in the raw inputs, and so the income is left undiminished. -/
theorem evaluate_exact_surveyed :
    ∃ trail otherTrail : AuditTrail,
      evaluate .usual "" "" (surveyed [grossPotentialIncome, surveyedVacancy, effectiveGrossIncome])
        (rawInputs [("totalRevenue", .text "1,000.50"), ("vacancyAllowance", .int 9)]) =
          .ok trail ∧
      evaluate .usual "" "" (surveyed [relistedIncome, surveyedVacancy, grossPotentialIncome])
        (rawInputs [("totalRevenue", .text "1,000.50"), ("vacancyAllowance", .int 9)]) =
          .ok otherTrail ∧
      trail.results = [("grossPotentialIncome", some (.finite false 100050 (-2))),
        ("vacancyAllowance", none),
        ("effectiveGrossIncome", some (.finite false 100050 (-2)))] ∧
      ∀ id, trail.results.get? id = otherTrail.results.get? id := by
  obtain ⟨trail, htrail, hresults⟩ := Option.map_eq_some_iff.1
    (show (evaluate .usual "" ""
        (surveyed [grossPotentialIncome, surveyedVacancy, effectiveGrossIncome])
        (rawInputs [("totalRevenue", .text "1,000.50"), ("vacancyAllowance", .int 9)])).toOption.map
          AuditTrail.results =
      some [("grossPotentialIncome", some (.finite false 100050 (-2))), ("vacancyAllowance", none),
        ("effectiveGrossIncome", some (.finite false 100050 (-2)))] by decide +kernel)
  obtain ⟨otherTrail, hother⟩ := Option.isSome_iff_exists.1
    (show (evaluate .usual "" "" (surveyed [relistedIncome, surveyedVacancy, grossPotentialIncome])
        (rawInputs [("totalRevenue", .text "1,000.50"),
          ("vacancyAllowance", .int 9)])).toOption.isSome by decide +kernel)
  rw [toOption_eq_some] at htrail hother
  refine ⟨trail, otherTrail, htrail, hother, hresults, ?_⟩
  -- The second registry lists the same formulas the other way round, one of them with its dependencies the
  -- other way round as well.
  have hagrees : (surveyed [grossPotentialIncome, surveyedVacancy, effectiveGrossIncome]).AgreesWith
      (surveyed [relistedIncome, surveyedVacancy, grossPotentialIncome]) := by
    refine ⟨?_, ?_, fun _ => rfl⟩
    · simp [surveyed, agreesWith_relistedIncome, Formula.AgreesWith.refl]
    · simp [surveyed, agreesWith_relistedIncome, Formula.AgreesWith.refl]
  exact (evaluate_exact (reached_surveyed (by cbv)) htrail).2.2 _ .usual "" "" otherTrail
    (reached_surveyed (by cbv)) hagrees hother

end Evaluation

end Appraisal
