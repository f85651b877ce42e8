import Appraisal.Model.Assembly
import Appraisal.Proofs.Evaluation.DirectCapitalization

/-!
# What a model is assembled from

A model of a user input has an identifier, the evaluation of the usual formulas on the numbers of the user
input, and parts that are read off both.
-/

namespace Appraisal

/-- An identifier that has been drawn is never empty, and an empty one that was given is replaced. -/
theorem Build.idOr_ne {given : Option String} {id : String} {supply rest : IdSupply}
    (h : idOr given supply = .ok (id, rest)) : id ≠ "" := by
  -- Every identifier of the supply has a fixed tail.
  have hdrawn (h : drawId supply = .ok (id, rest)) : id ≠ "" := by
    have hnext : IdSupply.nth (supply.drawn + 1) = id := congrArg Prod.fst (Except.ok.inj h)
    rintro rfl
    have hlong := IdSupply.length_nth_pos (supply.drawn + 1)
    rw [hnext] at hlong
    exact absurd hlong (by decide)
  unfold idOr at h
  split at h
  · split at h
    · exact hdrawn h
    · next hgiven =>
        cases h
        exact hgiven
  · exact hdrawn h

namespace FinancialModel

/-- A model without a registry of its own is a model with the usual one. -/
theorem assemble_capitalization (clock : FinancialModel.Clock) (title : String) (input : UserInput) (options : ModelOptions)
    (settings : Settings) :
    assemble clock title input (some (DirectCap.capitalization settings.defaultVacancyRate)) options
        settings =
      assemble clock title input none options settings := by
  have hregistry : registryOr (some (DirectCap.capitalization settings.defaultVacancyRate)) settings =
      registryOr none settings := by
    unfold registryOr
    rw [DirectCap.registry_eq]
    rfl
  unfold assemble assembleAs
  rw [hregistry]

/-- The model that is made of a user input and its evaluation. -/
def ofTrail (id : String) (clock : Clock) (title : String) (modelType : FinancialModelType)
    (input : UserInput) (options : ModelOptions) (settings : Settings) (trail : AuditTrail) :
    FinancialModel :=
  let summary := options.summary.getD (writeSummary input trail)
  { id
    title
    modelType
    briefReasoning := {
      summary
      decisions := options.decisions
      flaggedItems :=
        flagLineItems input (thresholdOf options settings) ++ flagCalculations trail ++
          flagSummary summary
      overallConfidence := input.overallConfidence }
    userInput := input
    calculations := trail
    metadata := metadataOf clock options settings
    types := typeMetadata trail }

variable {clock : FinancialModel.Clock} {title : String} {input : UserInput} {options : ModelOptions} {settings : Settings}
  {supply rest : IdSupply} {model : FinancialModel}

/-- All that goes into a model of a user input. -/
theorem assemble_given_eq_ok {given : Option Registry}
    (h : assemble clock title input given options settings supply = .ok (model, rest)) :
    ∃ registry id raw modelType trail,
      registryOr given settings = .ok registry ∧ id ≠ "" ∧
      Formula.optionOf FinancialModelType options.modelType = .ok modelType ∧
      input.rawInputs = .ok raw ∧
      Evaluation.evaluate settings clock.toClock id registry (fun name => (raw.get? name).join) = .ok trail ∧
      model = ofTrail id clock title modelType input options settings trail := by
  obtain ⟨id, between, hid, h⟩ := Build.bind_eq_ok.1 h
  obtain ⟨h, -⟩ := Build.ofExcept_eq_ok.1 h
  obtain ⟨registry, hregistry, h⟩ := bind_eq_ok.1 h
  obtain ⟨modelType, hmodelType, h⟩ := bind_eq_ok.1 h
  obtain ⟨raw, hraw, h⟩ := bind_eq_ok.1 h
  obtain ⟨trail, htrail, h⟩ := bind_eq_ok.1 h
  exact ⟨registry, id, raw, modelType, trail, hregistry, Build.idOr_ne hid, hmodelType,
    ofDecimal_eq_ok.1 hraw, htrail, (pure_eq_ok.1 h).symm⟩

/-- Without a given registry, the thirteen formulas are used. -/
theorem eq_capitalization_of_registryOr {registry : Registry}
    (h : registryOr none settings = .ok registry) :
    registry = DirectCap.capitalization settings.defaultVacancyRate := by
  unfold registryOr at h
  rw [DirectCap.registry_eq] at h
  exact (Except.ok.inj h).symm

/-- All that goes into a model of a user input that is evaluated by the usual formulas. -/
theorem assemble_eq_ok
    (h : assemble clock title input none options settings supply = .ok (model, rest)) :
    ∃ id raw modelType trail, id ≠ "" ∧
      Formula.optionOf FinancialModelType options.modelType = .ok modelType ∧
      input.rawInputs = .ok raw ∧
      Evaluation.evaluate settings clock.toClock id (DirectCap.capitalization settings.defaultVacancyRate)
        (fun name => (raw.get? name).join) = .ok trail ∧
      model = ofTrail id clock title modelType input options settings trail := by
  obtain ⟨registry, id, raw, modelType, trail, hregistry, hrest⟩ := assemble_given_eq_ok h
  obtain rfl := eq_capitalization_of_registryOr hregistry
  exact ⟨id, raw, modelType, trail, hrest⟩

end FinancialModel
end Appraisal
