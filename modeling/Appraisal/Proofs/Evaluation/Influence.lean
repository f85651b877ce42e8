import Appraisal.Proofs.Evaluation.Record

/-!
# What a record depends on

A formula reads the inputs of its operands and nothing else, and where an operand names a declared
dependency it reads the result of that formula.  So the record of a formula is settled by the definitions of
the formula and of all those that it rests on, by the functions that they call, and by the raw inputs of
those of their operands that name no dependency.  Whatever else two registries and two sets of inputs differ
in, the records are the same, apart from the moment of the run.
-/

namespace Appraisal

/-- The record as a run at another moment would hold it. -/
def CalculationResult.dated (now : String) (result : CalculationResult) : CalculationResult :=
  { result with source := { result.source with timestamp := now } }

variable {first second : Inputs}

/-! ## A formula reads the inputs of its operands -/

theorem Operand.resolve_congr {operand : Operand} (h : first operand.key = second operand.key) :
    operand.resolve first = operand.resolve second := by
  unfold Operand.resolve
  rw [h]

/-- Two inputs are the same to a formula. -/
def Formula.ReadsAlike (formula : Formula) (first second : Inputs) : Prop :=
  ∀ operand ∈ formula.operands, first operand.key = second operand.key

theorem Formula.resolve_congr {formula : Formula} (h : formula.ReadsAlike first second) :
    formula.resolve first = formula.resolve second := by
  refine foldlM_congr (fun operand hmem resolved => ?_) _
  rw [Operand.resolve_congr (h operand hmem)]

/-- A computation reads the inputs of its operands and the function that it calls, and nothing else. -/
theorem Formula.compute_congr {formula : Formula}
    {functions otherFunctions : Dictionary CustomFunction} (h : formula.ReadsAlike first second)
    (hfunctions : formula.operation = .custom →
      functions.get? formula.functionName = otherFunctions.get? formula.functionName) :
    formula.compute first functions = formula.compute second otherFunctions := by
  have hraw (resolved : Resolved) :
      formula.rawResult resolved functions = formula.rawResult resolved otherFunctions := by
    unfold Formula.rawResult
    split
    · next hcustom => rw [hfunctions hcustom]
    · rfl
  unfold Formula.compute
  rw [Formula.resolve_congr h]
  simp only [hraw]

namespace Evaluation

theorem defaultFootnotes_congr {formulaId : String} {operands : List Operand}
    (h : ∀ operand ∈ operands, first operand.key = second operand.key) (symbol : Nat) :
    defaultFootnotes formulaId first symbol operands =
      defaultFootnotes formulaId second symbol operands := by
  induction operands generalizing symbol with
  | nil => rfl
  | cons operand rest ih =>
      rw [List.forall_mem_cons] at h
      simp only [defaultFootnotes, h.1, ih h.2]

/-- A record depends on what the computation reads; the moment shows in its date only. -/
theorem evaluateFormula_congr {settings : Settings} {now : String} {formula : Formula}
    {functions otherFunctions : Dictionary CustomFunction} {result : CalculationResult}
    (otherNow : String) (hreads : formula.ReadsAlike first second)
    (hfunctions : formula.operation = .custom →
      functions.get? formula.functionName = otherFunctions.get? formula.functionName)
    (h : evaluateFormula settings now formula first functions = .ok result) :
    evaluateFormula settings otherNow formula second otherFunctions =
      .ok (result.dated otherNow) := by
  obtain ⟨resolved, steps, footnotes, expression, found, source, hresolved, hsteps, hfootnotes,
    hexpression, hfound, hsource, rfl⟩ := evaluateFormula_eq_ok_iff.1 h
  obtain ⟨rfl, hnamed⟩ := forCalculation_eq_ok_iff.1 hsource
  rw [Formula.resolve_congr hreads] at hresolved
  rw [defaultFootnotes_congr hreads] at hfootnotes
  rw [Formula.compute_congr hreads hfunctions] at hfound
  exact evaluateFormula_eq_ok_iff.2 ⟨resolved, steps, footnotes, expression, found, _, hresolved,
    hsteps, hfootnotes, hexpression, hfound, forCalculation_eq_ok_iff.2 ⟨rfl, hnamed⟩, rfl⟩

end Evaluation

/-! ## What a formula rests on -/

namespace Registry

/-- The formulas that a formula rests on: itself, those that it depends on, and those that they rest
on. -/
def Supports (registry : Registry) (id : String) (formula : Formula) : Prop :=
  formula ∈ registry.formulas ∧
    Relation.ReflTransGen (Formula.DependsOn registry.formulas) id formula.id

/-- A second registry, with inputs of its own, holds all that a formula of the first rests on. -/
structure HoldsSupport (first second : Registry) (raw otherRaw : Inputs) (id : String) : Prop where
  definitions : ∀ formula, first.Supports id formula → formula ∈ second.formulas
  functions : ∀ formula, first.Supports id formula → formula.operation = .custom →
    first.functions.get? formula.functionName = second.functions.get? formula.functionName
  /-- The raw inputs that are read are the same.  An operand that names a dependency reads none. -/
  inputs : ∀ formula, first.Supports id formula → ∀ operand ∈ formula.operands,
    operand.key ∉ formula.dependencies → raw operand.key = otherRaw operand.key

/-- What supports a formula is closed under dependencies. -/
theorem Supports.dependency {registry : Registry} {id : String} {formula other : Formula}
    (h : registry.Supports id formula) (hmem : other ∈ registry.formulas)
    (hdependency : other.id ∈ formula.dependencies) : registry.Supports id other :=
  ⟨hmem, h.2.tail ⟨formula, h.1, rfl, hdependency⟩⟩

/-- A set of identifiers that holds a formula, and with each formula its dependencies, holds all that the
formula rests on. -/
theorem Supports.id_mem {registry : Registry} {id : String} {formula : Formula}
    (h : registry.Supports id formula) (ids : List String) (hid : id ∈ ids)
    (hids : ∀ other ∈ registry.formulas, other.id ∈ ids → other.dependencies ⊆ ids) :
    formula.id ∈ ids := by
  suffices hpath : ∀ reached,
      Relation.ReflTransGen (Formula.DependsOn registry.formulas) id reached → reached ∈ ids from
    hpath _ h.2
  intro reached hpath
  induction hpath with
  | refl => exact hid
  | tail _ hlast ih =>
      obtain ⟨other, hother, rfl, hdependency⟩ := hlast
      exact hids other hother ih hdependency

end Registry

namespace Evaluation

variable {registry other : Registry} {raw otherRaw : Inputs} {id : String}

/-- With equal values for the dependencies, a supported formula reads the same in both registries. -/
theorem readsAlike_of_holdsSupport (hregistry : registry.Consistent)
    (h : registry.HoldsSupport other raw otherRaw id) {formula : Formula}
    (hformula : registry.Supports id formula) {values otherValues : String → Option Decimal}
    (hvalues : ∀ dependency ∈ registry.formulas, dependency.id ∈ formula.dependencies →
      values dependency.id = otherValues dependency.id) :
    formula.ReadsAlike (overlaid raw values formula.dependencies)
      (overlaid otherRaw otherValues formula.dependencies) := by
  intro operand hoperand
  unfold overlaid
  split
  · next hdependency =>
      obtain ⟨dependency, hmem, hid⟩ :=
        List.mem_map.1 (hregistry.closed formula hformula.1 hdependency)
      rw [← hid]
      exact hvalues dependency hmem (hid ▸ hdependency)
  · next hfree => exact h.inputs formula hformula operand hoperand hfree

/-- The solutions of both registries agree on all that the formula rests on. -/
theorem values_eq_of_holdsSupport (hregistry : registry.Consistent)
    (h : registry.HoldsSupport other raw otherRaw id) {values otherValues : String → Option Decimal}
    (hvalues : Solves registry raw values) (hotherValues : Solves other otherRaw otherValues) :
    ∀ formula, registry.Supports id formula → values formula.id = otherValues formula.id := by
  suffices hall : ∀ formula ∈ registry.formulas, registry.Supports id formula →
      values formula.id = otherValues formula.id from
    fun formula hformula => hall formula hformula.1 hformula
  -- The induction is along the dependencies, so it stays among the formulas that are rested on.
  refine hregistry.induction fun formula hmem hdependencies hformula => ?_
  have hreads := readsAlike_of_holdsSupport hregistry h hformula fun dependency hdependency hin =>
    hdependencies dependency hdependency hin (hformula.dependency hdependency hin)
  rw [hvalues formula hmem, hotherValues formula (h.definitions formula hformula)]
  unfold Formula.outcome
  rw [Formula.compute_congr hreads (h.functions formula hformula)]

/-- Two runs that return hold the same record of a formula, apart from its date, when the second registry
and its raw inputs agree with the first on all that the formula rests on. -/
theorem record_unaffected {registry other : Registry} (hregistry : registry.Reached)
    (hother : other.Reached) {entries otherEntries : Dictionary Payload} {id : String}
    (hid : id ∈ registry.ids)
    (h : registry.HoldsSupport other (rawInputs entries) (rawInputs otherEntries) id)
    {settings : Settings} {clock otherClock : Clock} {modelId otherModelId : String}
    {trail otherTrail : AuditTrail}
    (hrun : evaluate settings clock modelId registry (rawInputs entries) = .ok trail)
    (hotherRun : evaluate settings otherClock otherModelId other (rawInputs otherEntries) =
      .ok otherTrail) :
    ∃ result, trail.get? id = some result ∧
      otherTrail.get? id = some (result.dated (otherClock.recorded id)) := by
  obtain ⟨formula, hmem, rfl⟩ := List.mem_map.1 hid
  have hformula : registry.Supports formula.id formula := ⟨hmem, .refl⟩
  have hvalues := values_eq_of_holdsSupport hregistry.consistent h
    (solved_of_evaluate hregistry.consistent hrun).2
    (solved_of_evaluate hother.consistent hotherRun).2
  have hreads := readsAlike_of_holdsSupport hregistry.consistent h hformula
    fun dependency hdependency hin => hvalues dependency (hformula.dependency hdependency hin)
  obtain ⟨result, hresult, hevaluated⟩ := get?_of_evaluate hregistry.consistent hrun hmem
  obtain ⟨otherResult, hotherResult, hotherEvaluated⟩ :=
    get?_of_evaluate hother.consistent hotherRun (h.definitions formula hformula)
  refine ⟨result, hresult, ?_⟩
  -- The two evaluations read the same and differ in the moment at which they are recorded.
  have hsame := evaluateFormula_congr (otherClock.recorded formula.id) hreads
    (h.functions formula hformula) hevaluated
  rw [hotherResult, Except.ok.inj (hotherEvaluated.symm.trans hsame)]

open DirectCap

/-- Expenses that are counted by a survey. -/
def surveyedExpenses : Formula :=
  { totalOperatingExpenses with operation := .custom, function := some "survey" }

/-- The second registry lists the formulas in another order, with another formula for the expenses, which the
income does not depend on. -/
theorem holdsSupport_surveyed {raw otherRaw : Inputs}
    (hrevenue : raw "totalRevenue" = otherRaw "totalRevenue")
    (hrate : raw "vacancyRate" = otherRaw "vacancyRate") :
    (surveyed [grossPotentialIncome, surveyedVacancy, effectiveGrossIncome,
        totalOperatingExpenses]).HoldsSupport
      (surveyed [surveyedExpenses, effectiveGrossIncome, surveyedVacancy, grossPotentialIncome])
      raw otherRaw "effectiveGrossIncome" := by
  -- Of the four formulas, all but the expenses support the income.
  have hsupport : ∀ formula, (surveyed [grossPotentialIncome, surveyedVacancy,
      effectiveGrossIncome, totalOperatingExpenses]).Supports "effectiveGrossIncome" formula →
      formula ∈ [grossPotentialIncome, surveyedVacancy, effectiveGrossIncome] := by
    intro formula hformula
    have hid := hformula.id_mem
      ["grossPotentialIncome", "vacancyAllowance", "effectiveGrossIncome"]
      (by decide) (by decide +kernel)
    have hmem := hformula.1
    simp only [surveyed, List.mem_cons, List.not_mem_nil, or_false] at hmem ⊢
    rcases hmem with rfl | rfl | rfl | rfl
    · exact Or.inl rfl
    · exact Or.inr (Or.inl rfl)
    · exact Or.inr (Or.inr rfl)
    · exact absurd hid (by decide)
  refine ⟨fun formula h => ?_, fun _ _ _ => rfl, fun formula h operand hoperand hfree => ?_⟩
  · have hmem := hsupport formula h
    simp only [surveyed, List.mem_cons, List.not_mem_nil, or_false] at hmem ⊢
    tauto
  · have hmem := hsupport formula h
    simp only [List.mem_cons, List.not_mem_nil, or_false] at hmem
    rcases hmem with rfl | rfl | rfl
    · obtain rfl := List.mem_singleton.1 hoperand
      exact hrevenue
    · rcases List.mem_pair.1 hoperand with rfl | rfl
      · exact absurd (by decide) hfree
      · exact hrate
    · rcases List.mem_pair.1 hoperand with rfl | rfl <;> exact absurd (by decide) hfree

/-- Neither the places of registration nor the expenses, which cannot be computed in the second run, touch
the effective gross income; nor does a vacancy in the raw inputs, although the survey does not yield any. -/
theorem record_unaffected_surveyed :
    ∃ trail otherTrail result,
      evaluate .usual "monday" "a"
        (surveyed [grossPotentialIncome, surveyedVacancy, effectiveGrossIncome,
          totalOperatingExpenses])
        (rawInputs [("totalRevenue", .text "1,000.50"), ("vacancyAllowance", .int 9)]) =
          .ok trail ∧
      evaluate .usual "tuesday" "b"
        (surveyed [surveyedExpenses, effectiveGrossIncome, surveyedVacancy, grossPotentialIncome])
        (rawInputs [("totalRevenue", .decimal (.finite false 100050 (-2))),
          ("totalExpenses", .int 1), ("vacancyAllowance", .int 200)]) = .ok otherTrail ∧
      trail.get? "effectiveGrossIncome" = some result ∧
      otherTrail.get? "effectiveGrossIncome" = some (result.dated "tuesday") := by
  -- The raw entry under the name of a formula differs, but a dependency hides it.
  obtain ⟨trail, htrail⟩ := Option.isSome_iff_exists.1
    (show (evaluate .usual "monday" "a"
        (surveyed [grossPotentialIncome, surveyedVacancy, effectiveGrossIncome,
          totalOperatingExpenses])
        (rawInputs [("totalRevenue", .text "1,000.50"),
          ("vacancyAllowance", .int 9)])).toOption.isSome by decide +kernel)
  obtain ⟨otherTrail, hother⟩ := Option.isSome_iff_exists.1
    (show (evaluate .usual "tuesday" "b"
        (surveyed [surveyedExpenses, effectiveGrossIncome, surveyedVacancy, grossPotentialIncome])
        (rawInputs [("totalRevenue", .decimal (.finite false 100050 (-2))),
          ("totalExpenses", .int 1),
          ("vacancyAllowance", .int 200)])).toOption.isSome by decide +kernel)
  rw [toOption_eq_some] at htrail hother
  obtain ⟨result, hresult, hotherResult⟩ := record_unaffected (reached_surveyed (by cbv))
    (reached_surveyed (by cbv)) (by decide)
    (holdsSupport_surveyed (by decide +kernel) (by decide +kernel)) htrail hother
  exact ⟨trail, otherTrail, result, htrail, hother, hresult, hotherResult⟩

end Evaluation
end Appraisal
