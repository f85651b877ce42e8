import Appraisal.Proofs.Evaluation.Presentable

/-!
# Properties of all numbers of a run

A property that every result of arithmetic has, and that the defaults of the formulas, the raw inputs and
the answers of the functions have, is a property of every number that is computed from them.
-/

namespace Appraisal

variable {property : Decimal → Prop}

/-! ## What is given -/

/-- All known numbers have the property. -/
def Inputs.All (property : Decimal → Prop) (inputs : Inputs) : Prop :=
  ∀ name number, inputs name = some number → property number

/-- The defaults of the formula have the property. -/
def Formula.AllDefaults (property : Decimal → Prop) (formula : Formula) : Prop :=
  ∀ operand ∈ formula.operands, ∀ number, operand.fallback = some number → property number

/-- The answers of all functions have the property. -/
def AllAnswers (property : Decimal → Prop) (functions : Dictionary CustomFunction) : Prop :=
  ∀ name function, functions.get? name = some function →
    ∀ resolved answer, function resolved = .ok answer →
      ∀ number, answer.amount? = some number → property number

/-- The defaults of all formulas and the answers of all functions have the property. -/
structure Registry.AllGiven (property : Decimal → Prop) (registry : Registry) : Prop where
  defaults : ∀ formula ∈ registry.formulas, formula.AllDefaults property
  answers : AllAnswers property registry.functions

theorem Inputs.All.mono {other : Decimal → Prop} {inputs : Inputs} (h : inputs.All property)
    (himplies : ∀ x, property x → other x) : inputs.All other :=
  fun name number hnumber => himplies number (h name number hnumber)

theorem Formula.AllDefaults.mono {other : Decimal → Prop} {formula : Formula}
    (h : formula.AllDefaults property) (himplies : ∀ x, property x → other x) :
    formula.AllDefaults other :=
  fun operand hoperand number hnumber => himplies number (h operand hoperand number hnumber)

/-- Numbers are read from payloads only where they are finite. -/
theorem Evaluation.isFinite_rawInputs (entries : Dictionary Payload) :
    Inputs.All (fun number => number.isFinite = true) (rawInputs entries) := by
  intro name number hnumber
  obtain ⟨payload, -, hamount⟩ := Option.bind_eq_some_iff.1 hnumber
  exact Payload.isFinite_of_amount? hamount

/-! ## What is found for operands -/

/-- A number is dropped because it must be positive and is not; otherwise it is taken as it is. -/
theorem Operand.ifPositive_eq_ok {required : Bool} {number : Decimal} {shown : Option Decimal}
    (h : ifPositive required number = .ok shown) :
    (shown = none ∧ required = true ∧ number.le? .zero = .ok true) ∨
      shown = some number ∧ (required = true → number.le? .zero = .ok false) := by
  unfold ifPositive at h
  cases required with
  | false => exact .inr ⟨(Except.ok.inj h).symm, by simp⟩
  | true =>
      obtain ⟨isSmall, hsmall, h⟩ := bind_eq_ok.1 h
      cases isSmall with
      | true => exact .inl ⟨(pure_eq_ok.1 h).symm, rfl, hsmall⟩
      | false => exact .inr ⟨(pure_eq_ok.1 h).symm, fun _ => hsmall⟩

theorem Operand.resolve_eq_some {operand : Operand} {inputs : Inputs} {number : Decimal}
    (h : operand.resolve inputs = .ok (some number)) :
    (inputs operand.key).or operand.fallback = some number := by
  unfold resolve at h
  split at h
  · next found hfound =>
      rcases ifPositive_eq_ok h with ⟨hdropped, -⟩ | ⟨htaken, -⟩
      · cases hdropped
      · exact hfound.trans htaken.symm
  · cases h

namespace Formula

variable {formula : Formula} {inputs : Inputs} {resolved : Resolved} {operands : List Operand}
  {values : List Decimal} {functions : Dictionary CustomFunction} {number : Decimal}

/-- Every number that has been found is an input or a default of an operand with that key. -/
theorem get?_of_resolve (h : formula.resolve inputs = .ok resolved) :
    ∀ key number, (resolved.get? key).join = some number →
      ∃ operand ∈ formula.operands, (inputs operand.key).or operand.fallback = some number := by
  refine foldlM_invariant (fun done resolved => ∀ key number,
    (resolved.get? key).join = some number →
      ∃ operand ∈ done, (inputs operand.key).or operand.fallback = some number) ?_ ?_ h
  · simp
  · intro done operand after resolved next _ hdone hnext key number hnumber
    obtain ⟨value, hvalue, hnext⟩ := bind_eq_ok.1 hnext
    obtain rfl := pure_eq_ok.1 hnext
    -- An operand with a key that came up before replaces its number.
    by_cases hkey : key = operand.key
    · rw [hkey, Dictionary.get?_put_self] at hnumber
      exact ⟨operand, by simp, operand.resolve_eq_some (hvalue.trans (congrArg _ hnumber))⟩
    · rw [Dictionary.get?_put_of_ne resolved value hkey] at hnumber
      obtain ⟨other, hother, hfound⟩ := hdone key number hnumber
      exact ⟨other, List.mem_append_left _ hother, hfound⟩

theorem exists_of_mem_mapM_resolvedValue (h : operands.mapM (resolvedValue resolved) = some values)
    {value : Decimal} (hmem : value ∈ values) :
    ∃ operand ∈ operands, resolvedValue resolved operand = some value := by
  have hfound : some value ∈ operands.map (resolvedValue resolved) := by
    rw [mapM_eq_some_iff.1 h]
    exact List.mem_map_of_mem hmem
  exact List.mem_map.1 hfound

/-- The number of an operand is given or stands in for a missing one. -/
theorem AllDefaults.either (h : formula.AllDefaults property) (hinputs : inputs.All property)
    {operand : Operand} (hoperand : operand ∈ formula.operands)
    (hnumber : (inputs operand.key).or operand.fallback = some number) : property number := by
  rcases Option.or_eq_some_iff.1 hnumber with hgiven | ⟨-, hfallback⟩
  · exact hinputs operand.key number hgiven
  · exact h operand hoperand number hfallback

/-- Numbers found come from inputs and defaults, and share what these have in common. -/
theorem AllDefaults.found (h : formula.AllDefaults property) (hinputs : inputs.All property)
    (hresolved : formula.resolve inputs = .ok resolved) {key : String}
    (hnumber : (resolved.get? key).join = some number) : property number := by
  obtain ⟨operand, hoperand, hfound⟩ := get?_of_resolve hresolved key number hnumber
  exact h.either hinputs hoperand hfound

end Formula

/-! ## What is computed -/

section Arithmetic

variable (harithmetic : ∀ x : Decimal, x.Rounded → property x)

include harithmetic

theorem Operation.quotient_property {values : List Decimal} {first number : Decimal}
    (hfirst : property first) (h : quotient first values = .ok (some number)) :
    property number := by
  induction values generalizing first with
  | nil =>
      obtain rfl := Option.some.inj (Except.ok.inj h)
      exact hfirst
  | cons denominator rest ih =>
      obtain ⟨isZero, -, h⟩ := bind_eq_ok.1 h
      split at h
      · cases h
      · obtain ⟨next, hnext, h⟩ := bind_eq_ok.1 h
        exact ih (harithmetic next (.of_div hnext)) h

/-- Except for a lone dividend, which is handed on, the result of an operation is a result of arithmetic. -/
theorem Operation.apply_property {operation : Operation} {values : List Decimal} {number : Decimal}
    (hvalues : ∀ value ∈ values, property value)
    (h : operation.apply values = .ok (some number)) : property number := by
  unfold apply at h
  split at h
  · cases h
  · obtain ⟨total, htotal, h⟩ := bind_eq_ok.1 h
    obtain rfl := Option.some.inj (pure_eq_ok.1 h)
    exact harithmetic total (.of_sum htotal)
  · obtain ⟨total, htotal, h⟩ := bind_eq_ok.1 h
    obtain rfl := Option.some.inj (pure_eq_ok.1 h)
    exact harithmetic total (.of_sum htotal)
  -- Subtraction: the sum of all but the first is taken from the first.
  · obtain ⟨total, -, h⟩ := bind_eq_ok.1 h
    obtain ⟨difference, hdifference, h⟩ := bind_eq_ok.1 h
    obtain rfl := Option.some.inj (pure_eq_ok.1 h)
    exact harithmetic difference (.of_sub hdifference)
  · obtain ⟨product, hproduct, h⟩ := bind_eq_ok.1 h
    obtain rfl := Option.some.inj (pure_eq_ok.1 h)
    exact harithmetic product (.of_product hproduct)
  · exact quotient_property harithmetic (hvalues _ (List.mem_cons_self ..)) h
  · cases h

theorem Operand.weighted_property {operand : Operand} {value number : Decimal}
    (hvalue : property value) (h : operand.weighted value = .ok number) : property number := by
  unfold weighted at h
  split at h
  · exact harithmetic number (.of_mul h)
  · exact Except.ok.inj h ▸ hvalue

namespace Formula

variable {formula : Formula} {inputs : Inputs} {resolved : Resolved} {operands : List Operand}
  {values : List Decimal} {functions : Dictionary CustomFunction} {number : Decimal}

/-- A coefficient makes a number a result of arithmetic. -/
theorem weightedOperands_property
    (hresolved : ∀ key number, (resolved.get? key).join = some number → property number)
    (h : weightedOperands operands resolved = .ok (some values)) :
    ∀ value ∈ values, property value := by
  unfold weightedOperands at h
  intro value hvalue
  split at h
  · cases h
  · next numbers hnumbers =>
      obtain ⟨weights, hweights, h⟩ := bind_eq_ok.1 h
      obtain rfl := Option.some.inj (pure_eq_ok.1 h)
      obtain ⟨pair, hpair, hweighted⟩ := exists_of_mem_mapM hweights hvalue
      obtain ⟨operand, -, hfound⟩ :=
        exists_of_mem_mapM_resolvedValue hnumbers (List.of_mem_zip hpair).2
      exact Operand.weighted_property harithmetic (hresolved operand.key pair.2 hfound) hweighted

/-- The result is an answer of a function or a result of an operation. -/
theorem rawResult_property
    (hresolved : ∀ key number, (resolved.get? key).join = some number → property number)
    (hanswers : AllAnswers property functions)
    (h : formula.rawResult resolved functions = .ok (some number)) : property number := by
  unfold rawResult at h
  split at h
  -- A custom operation answers by its function, if there is one.
  · split at h
    · next function hfunction =>
        obtain ⟨answer, hanswer, h⟩ := bind_eq_ok.1 h
        exact hanswers _ function hfunction resolved answer hanswer number (pure_eq_ok.1 h)
    · cases h
  · obtain ⟨values, hvalues, h⟩ := bind_eq_ok.1 (ofDecimal_eq_ok.1 h)
    cases values with
    | none => cases h
    | some values =>
        exact Operation.apply_property harithmetic
          (weightedOperands_property harithmetic hresolved hvalues) h

/-- The value of a formula has the property. -/
theorem AllDefaults.outcome (h : formula.AllDefaults property) (hinputs : inputs.All property)
    (hanswers : AllAnswers property functions)
    (hnumber : formula.outcome inputs functions = some number) : property number := by
  obtain ⟨resolved, result, hresolved, hresult, hscaled⟩ :=
    compute_eq_some (outcome_eq_some_iff.1 hnumber)
  rcases (scaled_eq_some hscaled).2 with rfl | ⟨scale, hscaled⟩
  · exact rawResult_property harithmetic (fun _ _ => h.found hinputs hresolved) hanswers hresult
  · exact harithmetic number (.of_mul hscaled)

end Formula
end Arithmetic

namespace Evaluation

/-- What holds of the raw inputs and of all results holds of the inputs of every formula. -/
theorem all_overlay {raw : Inputs} {results : Dictionary (Option Decimal)} (hraw : raw.All property)
    (hresults : Inputs.All property (valuesOf results)) (dependencies : List String) :
    Inputs.All property (overlay raw results dependencies) := by
  intro name number hnumber
  unfold overlay at hnumber
  split at hnumber
  · exact hresults name number hnumber
  · exact hraw name number hnumber

/-- One more result with the property keeps it for all results. -/
theorem all_put {results : Dictionary (Option Decimal)}
    (hresults : Inputs.All property (valuesOf results)) {value : Option Decimal}
    (hvalue : ∀ number, value = some number → property number) (name : String) :
    Inputs.All property (valuesOf (results.put name value)) := by
  intro other number hnumber
  by_cases hother : other = name
  · rw [hother, valuesOf_put_self] at hnumber
    exact hvalue number hnumber
  · rw [valuesOf_put_of_ne _ _ hother] at hnumber
    exact hresults other number hnumber

/-- What holds of all that is given and of every result of arithmetic holds of all results of a run. -/
theorem all_of_evaluate (harithmetic : ∀ x : Decimal, x.Rounded → property x) {settings : Settings}
    {clock : Clock} {modelId : String} {registry : Registry} {raw : Inputs} {trail : AuditTrail}
    (hregistry : registry.Consistent) (hgiven : registry.AllGiven property) (hraw : raw.All property)
    (h : evaluate settings clock modelId registry raw = .ok trail) :
    Inputs.All property (valuesOf trail.results) := by
  obtain ⟨progress, hprogress, rfl⟩ := evaluate_eq_ok h
  refine foldlM_invariant (fun _ progress => Inputs.All property (valuesOf progress.results)) ?_ ?_
    hprogress
  · intro name number hnumber
    simp [valuesOf] at hnumber
  · rintro done formula after progress next horder hresults hnext
    obtain ⟨hmem, -, -⟩ := Registry.dependencies_subset_of_executionOrder hregistry horder
    obtain ⟨result, hresult, rfl⟩ := advance_eq_ok hnext
    refine all_put hresults (fun number hnumber => ?_) formula.id
    rw [value_of_evaluateFormula hresult] at hnumber
    exact (hgiven.defaults formula hmem).outcome harithmetic
      (all_overlay hraw hresults formula.dependencies) hgiven.answers hnumber

end Evaluation
end Appraisal
