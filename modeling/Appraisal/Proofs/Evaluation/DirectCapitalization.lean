import Appraisal.Formula.DirectCap
import Appraisal.Proofs.Evaluation.Completion
import Appraisal.Proofs.Evaluation.Solution

/-!
# The chain of income formulas

The registry of direct capitalization consists of its formulas, whatever vacancy rate stands in for a
missing one.  Gross income, vacancy and effective income each compute one operation on the inputs that they
name.
-/

namespace Appraisal

/-! ## Formulas that take their operands as they are -/

/-- The operand is taken as it is: whatever number it has, and without a coefficient. -/
structure Operand.Plain (operand : Operand) : Prop where
  unrestricted : operand.positive = false
  unweighted : operand.coefficient = none

/-- What an operand stands for if it need not be positive. -/
def Formula.found (inputs : Inputs) (operand : Operand) : Option Decimal :=
  (inputs operand.key).or operand.fallback

/-- On these inputs the operand is taken as it is: what is found for it is not dropped. -/
structure Operand.Taken (inputs : Inputs) (operand : Operand) : Prop where
  resolve : operand.resolve inputs = .ok (Formula.found inputs operand)
  unweighted : operand.coefficient = none

/-- A plain operand takes whatever number is found. -/
theorem Operand.Plain.taken {operand : Operand} (h : operand.Plain) (inputs : Inputs) :
    operand.Taken inputs := by
  refine ⟨?_, h.unweighted⟩
  unfold Operand.resolve Formula.found Operand.ifPositive
  rw [h.unrestricted]
  cases (inputs operand.key).or operand.fallback <;> rfl

namespace Formula

variable {formula : Formula} {inputs : Inputs} {functions : Dictionary CustomFunction}

/-- Operands with distinct keys are stored one behind the other, each with the number found for it. -/
theorem foldlM_put_taken {operands : List Operand} (start : Resolved)
    (htaken : ∀ operand ∈ operands, operand.Taken inputs) (hkeys : (operands.map Operand.key).Nodup)
    (hfresh : ∀ operand ∈ operands, operand.key ∉ start.keys) :
    operands.foldlM (fun (resolved : Resolved) operand => do
        return resolved.put operand.key (← operand.resolve inputs)) start =
      .ok (start ++ operands.map fun operand => (operand.key, found inputs operand)) := by
  induction operands generalizing start with
  | nil => rw [List.map_nil, List.append_nil]; rfl
  | cons operand rest ih =>
      rw [List.forall_mem_cons] at htaken hfresh
      rw [List.map_cons, List.nodup_cons] at hkeys
      -- The keys still to come are fresh for the longer list as well, because all keys are distinct.
      have hnext : ∀ other ∈ rest,
          other.key ∉ Dictionary.keys (start ++ [(operand.key, found inputs operand)]) := by
        intro other hother hmem
        simp only [Dictionary.keys, List.map_append, List.mem_append, List.map_cons, List.map_nil,
          List.mem_singleton] at hmem
        rcases hmem with hstart | heq
        · exact hfresh.2 other hother hstart
        · exact hkeys.1 (heq ▸ List.mem_map_of_mem hother)
      rw [List.foldlM_cons, htaken.1.resolve]
      show rest.foldlM _ (start.put operand.key (found inputs operand)) = _
      rw [Dictionary.put_of_not_mem start _ hfresh.1, ih _ htaken.2 hkeys.2 hnext, List.append_assoc]
      rfl

/-- The numbers of all operands, in order. -/
theorem resolve_of_taken (htaken : ∀ operand ∈ formula.operands, operand.Taken inputs)
    (hkeys : (formula.operands.map Operand.key).Nodup) :
    formula.resolve inputs =
      .ok (formula.operands.map fun operand => (operand.key, found inputs operand)) := by
  have hfold := foldlM_put_taken [] htaken hkeys (fun operand _ => List.not_mem_nil)
  rwa [List.nil_append] at hfold

theorem resolvedValue_of_mem {operands : List Operand} (hkeys : (operands.map Operand.key).Nodup)
    {operand : Operand} (hmem : operand ∈ operands) :
    resolvedValue (operands.map fun operand => (operand.key, found inputs operand)) operand =
      found inputs operand := by
  have hdistinct : (Dictionary.keys
      (operands.map fun operand => (operand.key, found inputs operand))).Nodup := by
    simpa [Dictionary.keys, Function.comp_def] using hkeys
  have hget := Dictionary.get?_of_mem hdistinct
    (List.mem_map_of_mem (f := fun operand => (operand.key, found inputs operand)) hmem)
  rw [resolvedValue, hget, Option.join_some]

/-- Without coefficients the weights are the numbers themselves. -/
theorem mapM_weighted_of_unweighted {operands : List Operand} {values : List Decimal}
    (hunweighted : ∀ operand ∈ operands, operand.coefficient = none) (hlength : operands.length = values.length) :
    ((operands.zip values).mapM fun pair => pair.1.weighted pair.2) = .ok values := by
  -- Numbers stand beside their operands, and none of them is changed.
  induction operands generalizing values with
  | nil =>
      obtain rfl : values = [] := List.length_eq_zero_iff.1 hlength.symm
      rfl
  | cons operand rest ih =>
      cases values with
      | nil => cases hlength
      | cons value others =>
          rw [List.forall_mem_cons] at hunweighted
          have hweighted : operand.weighted value = .ok value := by
            unfold Operand.weighted
            rw [hunweighted.1]
          rw [List.zip_cons_cons, List.mapM_cons, hweighted, ih hunweighted.2 (Nat.succ.inj hlength)]
          rfl

theorem weightedOperands_of_unweighted {operands : List Operand} {values : List Decimal}
    (hunweighted : ∀ operand ∈ operands, operand.coefficient = none)
    (hkeys : (operands.map Operand.key).Nodup)
    (hvalues : operands.map (found inputs) = values.map some) :
    weightedOperands operands (operands.map fun operand => (operand.key, found inputs operand)) =
      .ok (some values) := by
  have hfound : operands.mapM (resolvedValue
      (operands.map fun operand => (operand.key, found inputs operand))) = some values := by
    refine mapM_eq_some_iff.2 (Eq.trans (List.map_congr_left fun operand hmem => ?_) hvalues)
    exact resolvedValue_of_mem hkeys hmem
  have hlength : operands.length = values.length := by
    simpa using congrArg List.length hvalues
  unfold weightedOperands
  rw [hfound]
  dsimp only
  rw [mapM_weighted_of_unweighted hunweighted hlength]
  rfl

/-- A formula whose operands are taken as they are computes the result of its operation, times its scale. -/
theorem compute_of_taken (values : List Decimal) {result : Decimal} {value : Option Decimal}
    (hoperation : formula.operation ≠ .custom)
    (htaken : ∀ operand ∈ formula.operands, operand.Taken inputs)
    (hkeys : (formula.operands.map Operand.key).Nodup)
    (hvalues : formula.operands.map (found inputs) = values.map some)
    (happly : formula.operation.apply values = .ok (some result))
    (hscaled : formula.scaled result = .ok value) :
    formula.compute inputs functions = .ok value := by
  have hraw : formula.rawResult (formula.operands.map fun operand =>
      (operand.key, found inputs operand)) functions = .ok (some result) := by
    unfold rawResult
    rw [if_neg hoperation]
    exact ofDecimal_eq_ok.2 (bind_eq_ok.2 ⟨some values, weightedOperands_of_unweighted
      (fun operand hmem => (htaken operand hmem).unweighted) hkeys hvalues, happly⟩)
  exact bind_eq_ok.2 ⟨_, ofDecimal_eq_ok.2 (resolve_of_taken htaken hkeys),
    bind_eq_ok.2 ⟨some result, hraw, ofDecimal_eq_ok.2 hscaled⟩⟩

theorem scaled_of_isFinite {result : Decimal} (hscale : formula.scale = none)
    (hfinite : result.isFinite = true) : formula.scaled result = .ok (some result) := by
  unfold scaled Payload.finiteOnly
  rw [hscale, if_pos hfinite]
  rfl

/-- A formula on plain operands without a scale yields the result of its operation. -/
theorem outcome_of_plain (values : List Decimal) {result : Decimal}
    (hoperation : formula.operation ≠ .custom) (hscale : formula.scale = none)
    (hplain : ∀ operand ∈ formula.operands, operand.Plain)
    (hkeys : (formula.operands.map Operand.key).Nodup)
    (hvalues : formula.operands.map (found inputs) = values.map some)
    (happly : formula.operation.apply values = .ok (some result))
    (hfinite : result.isFinite = true) :
    formula.outcome inputs functions = some result := by
  rw [outcome_eq_some_iff]
  exact compute_of_taken values hoperation (fun operand hmem => (hplain operand hmem).taken inputs) hkeys
    hvalues happly (scaled_of_isFinite hscale hfinite)

end Formula

namespace DirectCap

open Evaluation

/-- The registry that holds the formulas of direct capitalization. -/
def capitalization (rate : Decimal) : Registry :=
  { formulas := formulas rate, functions := [(impliedCapRateName, impliedCapRate)] }

/-- The formulas are registered, whatever vacancy rate stands in for a missing one. -/
theorem registry_eq (rate : Decimal) : DirectCap.registry rate = .ok (capitalization rate) := by
  cbv

/-- The formulas can be registered whatever the usual rate is. -/
theorem reached_capitalization (rate : Decimal) : (capitalization rate).Reached := by
  obtain ⟨initial, hinitial, hregister⟩ := bind_eq_ok.1 (registry_eq rate)
  exact .register _ (.registerFunction _ _ .empty hinitial) hregister

variable {inputs : Inputs} {functions : Dictionary CustomFunction}

/-- The gross income is the revenue, rounded as a sum is. -/
theorem outcome_grossPotentialIncome {revenue gross : Decimal}
    (hrevenue : inputs "totalRevenue" = some revenue) (hgross : Decimal.sum [revenue] = .ok gross)
    (hfinite : gross.isFinite = true) :
    grossPotentialIncome.outcome inputs functions = some gross := by
  refine Formula.outcome_of_plain [revenue] (by decide) rfl ?_ (by decide) ?_ ?_ hfinite
  · simp only [grossPotentialIncome, List.forall_mem_cons]
    exact ⟨⟨rfl, rfl⟩, by simp⟩
  · simp [grossPotentialIncome, Formula.found, entry, hrevenue]
  · exact bind_eq_ok.2 ⟨gross, hgross, rfl⟩

/-- The allowance is a share of the gross income, by the rate that is given or by the usual one. -/
theorem outcome_vacancyAllowance {usualRate gross share allowance : Decimal}
    (hgross : inputs "grossPotentialIncome" = some gross)
    (hshare : (inputs "vacancyRate").or (some usualRate) = some share)
    (hallowance : Decimal.product [gross, share] = .ok allowance)
    (hfinite : allowance.isFinite = true) :
    (vacancyAllowance usualRate).outcome inputs functions = some allowance := by
  have hoperation : (vacancyAllowance usualRate).operation ≠ .custom :=
    show Operation.multiply ≠ .custom by decide
  refine Formula.outcome_of_plain [gross, share] hoperation rfl ?_ ?_ ?_ ?_ hfinite
  · simp only [vacancyAllowance, List.forall_mem_cons]
    exact ⟨⟨rfl, rfl⟩, ⟨rfl, rfl⟩, by simp⟩
  · show ["grossPotentialIncome", "vacancyRate"].Nodup
    decide
  · simp [vacancyAllowance, Formula.found, entry, DirectCap.result, hgross, hshare]
  · exact bind_eq_ok.2 ⟨allowance, hallowance, rfl⟩

/-- The effective income is what the allowance leaves of the gross income. -/
theorem outcome_effectiveGrossIncome {gross allowance loss effective : Decimal}
    (hgross : inputs "grossPotentialIncome" = some gross)
    (hallowance : inputs "vacancyAllowance" = some allowance)
    (hloss : Decimal.sum [allowance] = .ok loss) (heffective : gross.sub loss = .ok effective)
    (hfinite : effective.isFinite = true) :
    effectiveGrossIncome.outcome inputs functions = some effective := by
  refine Formula.outcome_of_plain [gross, allowance] (by decide) rfl ?_ (by decide) ?_ ?_
    hfinite
  · simp only [effectiveGrossIncome, List.forall_mem_cons]
    exact ⟨⟨rfl, rfl⟩, ⟨rfl, rfl⟩, by simp⟩
  · simp [effectiveGrossIncome, Formula.found, DirectCap.result, entry, hgross, hallowance]
  · exact bind_eq_ok.2 ⟨loss, hloss, bind_eq_ok.2 ⟨effective, heffective, rfl⟩⟩

end DirectCap
end Appraisal
